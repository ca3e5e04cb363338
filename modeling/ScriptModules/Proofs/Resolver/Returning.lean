import ScriptModules.Proofs.Files.Named
import ScriptModules.Proofs.Resolver.Reaching

/-!
# Ids resolve to themselves

An id is a specifier too, and one that says all: the name of a built-in module, or an absolute path.
Whatever a specifier has led to, its id leads there again, from any base and under any conditions
(`resolvesAgain`).  An absolute path is no URL, no name of a built-in module and no bare specifier,
and the path of a place leads to this place and is canonical (`realPath_toPath`).

It takes an id that is an absolute path.  Where canonicalization does not accept the path that was
found, the id is a relative path without points, and that is a bare specifier
(`not_resolvesAgain`).
-/

namespace ScriptModules

/-! ## Absolute paths as specifiers -/

/-- What begins with a slash has no scheme. -/
theorem Url.parse?_of_slash (text : String) : Url.parse? ("/" ++ text) = none := by
  have htrimmed : ∃ rest, Url.trimmed ('/' :: text.toList) = '/' :: rest := by
    have hslash : ¬ decide ('/'.toNat ≤ 0x20) = true := by decide
    simp only [Url.trimmed, List.dropWhile_cons, if_neg hslash, List.reverse_cons,
      List.dropWhile_append]
    split
    · exact ⟨[], rfl⟩
    · exact ⟨_, by rw [List.reverse_append]; rfl⟩
  obtain ⟨rest, hrest⟩ := htrimmed
  have hplain : Url.plain ('/' :: rest) = '/' :: Url.plain rest := rfl
  have hscheme : Url.scheme? ('/' :: Url.plain rest) = none := rfl
  have htext : ("/" ++ text).toList = '/' :: text.toList := by
    rw [String.toList_append]
    rfl
  rw [Url.parse?]
  simp only [htext, hrest, hplain, hscheme]
  rfl

theorem textAfter?_of_slash {front : String} (h : front.toList.head?.any (· ≠ '/') = true)
    (text : String) : textAfter? front ("/" ++ text) = none := by
  have htext : ("/" ++ text).toList = '/' :: text.toList := by
    rw [String.toList_append]
    rfl
  rw [textAfter?, htext]
  cases hfront : front.toList with
  | nil =>
      rw [hfront] at h
      cases h
  | cons first rest =>
      rw [hfront] at h
      have hne : (first == '/') = false := by simpa using h
      rw [List.isPrefixOf_cons_cons, hne]
      rfl

namespace Resolver

open FileSystem
open ScriptModules.Path (IsPiece)

variable {config : Config} {fs : FileSystem} {resolver other : Resolver} {specifier : String}
  {context later : ResolveContext} {resolution : Resolution} {location : Location}

/-- A specifier that begins with a slash is a good one if there is no null byte in it. -/
theorem flaw?_of_slash {text : String} (h : 0 ∉ Bytes.ofText ("/" ++ text)) :
    flaw? ("/" ++ text) = none := by
  have hempty : "/" ++ text ≠ "" := by
    intro heq
    have hlist := congrArg String.toList heq
    rw [String.toList_append] at hlist
    exact absurd hlist (by simp)
  have hnull : ¬ ("/" ++ text).toList.contains '\x00' = true := by
    rw [List.contains_iff_mem]
    intro hmem
    obtain ⟨front, rest, heq⟩ := List.append_of_mem hmem
    have htext : "/" ++ text = String.ofList front ++ ("\x00" ++ String.ofList rest) := by
      rw [← String.toList_inj, heq]
      simp
    have hzero : Bytes.ofText "\x00" = [0] := by decide
    refine h ?_
    rw [htext, Bytes.ofText_append, Bytes.ofText_append, hzero]
    exact List.mem_append_right _ List.mem_cons_self
  rw [flaw?, if_neg hempty, if_neg hnull]

/-- A text that begins with a slash names a built-in module only if this is called so. -/
theorem builtinName?_of_slash {text : String} (h : "/" ++ text ∉ resolver.builtins) :
    resolver.builtinName? ("/" ++ text) = none := by
  have hbuiltin : textAfter? builtinPrefix ("/" ++ text) = none := textAfter?_of_slash rfl text
  have hnode : textAfter? nodePrefix ("/" ++ text) = none := textAfter?_of_slash rfl text
  have hcontains : ¬ resolver.builtins.contains ("/" ++ text) = true :=
    mt List.contains_iff_mem.mp h
  simp only [builtinName?, hbuiltin, hnode, ite_self, if_neg hcontains]

/-! ## What an id comes to -/

/-- The path of a file, as a specifier, is that of the file. -/
theorem resolve_toPath {text : String} (hspelled : Path.ofString ("/" ++ text) =
      Location.toPath location) (hzero : 0 ∉ (Location.toPath location).bytes)
    (hnot : "/" ++ text ∉ resolver.builtins)
    (hfile : fs.isFile (Location.toPath location) = true)
    (hreal : fs.realPath (Location.toPath location) = .ok (Location.toPath location)) :
    (resolver.resolve fs ("/" ++ text) context).1 =
      .ok ⟨"/" ++ text, some (formatOf resolver.config (Location.toPath location)), false⟩ := by
  have hflaw : flaw? ("/" ++ text) = none := by
    refine flaw?_of_slash ?_
    rw [← hspelled] at hzero
    exact hzero
  have hurl : url? ("/" ++ text) = none := by
    rw [url?, Url.parse?_of_slash]
    rfl
  have habs : (Location.toPath location).isAbsolute = true := by
    cases location <;> rfl
  have hpath : isPath ("/" ++ text) = true := by
    rw [isPath, hspelled, habs, Bool.or_true]
  have hsearch : ∀ finder, path? resolver.config fs context.conditions
      (context.base.join (Location.toPath location)) finder =
        (some (Location.toPath location), finder) := by
    intro finder
    have hthere : file? resolver.config fs (Location.toPath location) =
        some (Location.toPath location) := by
      rw [file?, List.find?_cons, hfile]
    rw [Path.join, if_pos habs, path?, hthere]
    rfl
  have hfound : ∀ finder, found? resolver.config fs ("/" ++ text) context finder =
      (.ok (some (Location.toPath location)), finder) := by
    intro finder
    unfold found?
    rw [hurl]
    simp only [hpath, if_true, hspelled, bind, StateT.bind, hsearch]
    rfl
  have hcanonical : canonical fs (Location.toPath location) = Location.toPath location := by
    rw [canonical, hreal]
  have hshown : (Location.toPath location).toString = "/" ++ text := by
    rw [← hspelled, Path.toString_ofString]
  rw [resolve, hflaw, builtinName?_of_slash hnot]
  simp only [hfound, hcanonical, hshown]

/-- A built-in module has its id for a specifier. -/
theorem resolve_builtin_again (fs : FileSystem) {name : String} (hname : name ∈ resolver.builtins)
    (hflaw : flaw? (builtinPrefix ++ name) = none) :
    (resolver.resolve fs (builtinPrefix ++ name) context).1 =
      .ok ⟨builtinPrefix ++ name, some .virtual, false⟩ := by
  have hnamed : resolver.builtinName? (builtinPrefix ++ name) = some name := by
    rw [builtinName?, textAfter?_append]
  rw [resolve, hflaw, hnamed]
  simp only [if_pos (List.contains_iff_mem.mpr hname)]

/-! ## Ids -/

/-- The path of a place is shown with a slash in front. -/
theorem exists_toString_toPath (h : ∀ name ∈ location, ∃ text, name = Bytes.ofText text) :
    ∃ text, (Location.toPath location).toString = "/" ++ text ∧
      Path.ofString ("/" ++ text) = Location.toPath location := by
  have hspelled : ∃ text, Path.ofString ("/" ++ text) = Location.toPath location := by
    cases location with
    | nil => exact ⟨"", by decide⟩
    | cons name location =>
        obtain ⟨⟨first, rfl⟩, hrest⟩ := List.forall_mem_cons.mp h
        obtain ⟨rest, hpath⟩ := exists_ofString_flatMap hrest
        have hslash : Path.ofString "/" = ⟨[Path.slash]⟩ := by decide
        refine ⟨first ++ rest, ?_⟩
        rw [toPath_of_ne_nil (List.cons_ne_nil _ _), Path.ofString_append, Path.ofString_append,
          hpath, hslash]
        rfl
  obtain ⟨text, htext⟩ := hspelled
  exact ⟨text, by rw [← htext, Path.toString_ofString], htext⟩

/-- Canonicalization accepts what is found for a specifier, if this names no built-in module. -/
def Accepts (fs : FileSystem) (resolver : Resolver) (specifier : String)
    (context : ResolveContext) : Prop :=
  ∀ path, resolver.builtinName? specifier = none → Finds fs resolver specifier context path →
    ∃ real, fs.realPath path = .ok real

/-- Ids lead where they come from. -/
structure ResolvesAgain (fs : FileSystem) : Prop where
  /-- An id resolves to itself, with the same format. -/
  again {resolver other : Resolver} {specifier : String} {context later : ResolveContext}
    {resolution : Resolution}
    (hbuiltins : ∀ name ∈ resolver.builtins, (Path.ofString name).isAbsolute = false)
    (h : (resolver.resolve fs specifier context).1 = .ok resolution)
    (ha : Accepts fs resolver specifier context) (hconfig : other.config = resolver.config)
    (hnames : other.builtins = resolver.builtins) :
    (other.resolve fs resolution.url later).1 = .ok resolution
  /-- Canonicalization accepts what is found, unless it is a relative path while the working
  directory is lost, or something has too long a path. -/
  accepts {resolver : Resolver} {specifier : String} {context : ResolveContext}
    (hs : fs.HasShortPaths)
    (hhere : ∀ path, Finds fs resolver specifier context path →
      path.isAbsolute = true ∨ fs.lost = 0) :
    Accepts fs resolver specifier context

/-- Every id resolves to itself. -/
theorem resolvesAgain (hg : fs.Grounded) (hn : fs.HasTextNames) (hf : fs.HasFileNames) :
    ResolvesAgain fs := by
  constructor
  case again =>
    intro resolver other specifier context later resolution hbuiltins h ha hconfig hnames
    rcases cases_of_resolve_eq_ok h with ⟨name, hname, hbuiltin⟩ | ⟨hnone, path, hfinds, hfile, rfl⟩
    · obtain ⟨rfl, hflaw⟩ := resolve_builtin fs context hbuiltin resolution h
      exact resolve_builtin_again fs (hnames ▸ hname) hflaw
    · obtain ⟨real, hreal⟩ := ha path hnone hfinds
      obtain ⟨location, hlocation⟩ := exists_fileAt hfile
      have hshort := isLong_eq_false_of_realPath hg hlocation hreal
      obtain ⟨content, time, hnode⟩ := hlocation.node
      have hnames' := hn.of_node? hnode
      have hd := hlocation.onDirectories hg
      have hnever : ∀ target, Node.file content time ≠ .link target := fun _ => Node.noConfusion
      have hcanonical : canonical fs path = Location.toPath location := by
        obtain ⟨place, node, hfind, rfl⟩ := of_realPath_eq_ok hreal
        obtain ⟨content, time, hthere⟩ := hlocation
        rw [hthere] at hfind
        cases hfind
        rw [canonical, hreal]
      obtain ⟨text, hshown, hspelled⟩ :=
        exists_toString_toPath fun name hname => (hnames' name hname).2
      have hfound := find_toPath hf hd hnode hnever (isLong_eq_false.mp hshort)
      rw [hcanonical, hshown, ← hconfig]
      refine resolve_toPath hspelled ?_ ?_ ?_ (realPath_toPath hf hd hnode hnever hshort)
      · exact zero_notMem_toPath fun name hname => (hf.of_node? hnode name hname).2.1
      · intro hmem
        have habs := hbuiltins _ (hnames ▸ hmem)
        rw [hspelled] at habs
        exact absurd habs (by cases location <;> exact Bool.noConfusion)
      · rw [isFile, hfound]
  case accepts =>
    intro resolver specifier context hs hhere path _ hfinds
    have hfile := yields_found? resolver.config fs specifier context resolver.manifests path hfinds
    obtain ⟨location, content, time, hfind⟩ := exists_fileAt hfile
    exact ⟨_, realPath_of_find hs hfind (hhere path hfinds)⟩

/-! ## There and back -/

/-- What the link resolves to resolves to itself from another directory, whoever asks. -/
theorem resolvesAgain_linkedFiles :
    ((Resolver.ofConfig {}).resolve linkedFiles "./é.js" (requestFrom "/p")).1 =
        .ok ⟨"/p/a.js", some .script, false⟩ ∧
      ((Resolver.ofConfig {}).resolve linkedFiles "/p/a.js" ⟨"lib", .ofString "/", ["import"],
        false⟩).1 = .ok ⟨"/p/a.js", some .script, false⟩ := by
  have hn : linkedFiles.HasTextNames :=
    hasTextNames_of_texts ["p", "a.js", "é.js"] (by decide +kernel) (by decide +kernel)
  have hagain := resolvesAgain (grounded_of_root rfl) hn (by decide +kernel)
  have hfirst : ((Resolver.ofConfig {}).resolve linkedFiles "./é.js" (requestFrom "/p")).1 =
      .ok ⟨"/p/a.js", some .script, false⟩ := Outcome.of_toOption_eq_some (by decide +kernel)
  have hshort : linkedFiles.HasShortPaths := ⟨by decide +kernel, by decide +kernel⟩
  refine ⟨hfirst, hagain.again (by simp [Resolver.ofConfig]) hfirst ?_ rfl rfl⟩
  exact hagain.accepts hshort fun _ _ => Or.inr rfl

/-- Not every id resolves to itself: from a working directory that has been removed a file is found
by `..`, and its id is a bare specifier that leads to nothing. -/
theorem not_resolvesAgain : ¬ ∀ (fs : FileSystem) (resolver : Resolver) (specifier : String)
    (context later : ResolveContext) (resolution : Resolution), fs.Grounded → fs.HasTextNames →
    fs.HasFileNames → (∀ name ∈ resolver.builtins, (Path.ofString name).isAbsolute = false) →
    (resolver.resolve fs specifier context).1 = .ok resolution →
    (resolver.resolve fs resolution.url later).1 = .ok resolution := by
  intro hall
  have hg : orphanedFiles.Grounded := by
    intro depth hdepth
    obtain rfl : depth = 0 := Nat.le_zero.mp (Nat.le_of_succ_le_succ hdepth)
    rfl
  have hn : orphanedFiles.HasTextNames :=
    hasTextNames_of_texts ["p", "a.js"] (by decide +kernel) (by decide +kernel)
  have hfirst : ((Resolver.ofConfig {}).resolve orphanedFiles "./p/a.js" (requestFrom "..")).1 =
      .ok ⟨"p/a.js", some .script, false⟩ := Outcome.of_toOption_eq_some (by decide +kernel)
  have hagain := hall orphanedFiles (.ofConfig {}) "./p/a.js" (requestFrom "..")
    ⟨"p/a.js", .ofString "/", ["require"], true⟩ _ hg hn (by decide +kernel)
    (by simp [Resolver.ofConfig]) hfirst
  have hnone : ((Resolver.ofConfig {}).resolve orphanedFiles "p/a.js"
      ⟨"p/a.js", .ofString "/", ["require"], true⟩).1.toOption = none := by decide +kernel
  rw [hagain] at hnone
  cases hnone

end Resolver

end ScriptModules
