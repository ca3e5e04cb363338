import ScriptModules.Resolver

/-!
# The names of built-in modules

A built-in module is asked for by its id, in the form of another runtime, or by its bare
name.  Whichever of its specifiers is used, the resolver answers with the one id.
-/

namespace ScriptModules

theorem textAfter?_append (front text : String) : textAfter? front (front ++ text) = some text := by
  unfold textAfter?
  have hprefix : front.toList.isPrefixOf (front ++ text).toList = true := by
    rw [String.toList_append, List.isPrefixOf_iff_prefix]
    exact List.prefix_append _ _
  rw [if_pos hprefix, String.toList_append, ← String.length_toList, List.drop_left,
    String.ofList_toList]

theorem eq_append_of_textAfter? {front whole text : String}
    (h : textAfter? front whole = some text) : whole = front ++ text := by
  unfold textAfter? at h
  split at h
  · rename_i hprefix
    obtain ⟨rest, hrest⟩ := List.isPrefixOf_iff_prefix.mp hprefix
    cases h
    rw [← String.toList_inj, String.toList_append, ← hrest, ← String.length_toList]
    simp
  · cases h

namespace Resolver

/-- A specifier of a built-in module has its name at the end. -/
theorem builtinName?_eq_some {resolver : Resolver} {specifier name : String}
    (h : resolver.builtinName? specifier = some name) : ∃ front, specifier = front ++ name := by
  unfold builtinName? at h
  split at h
  · rename_i found heq
    cases h
    exact ⟨_, eq_append_of_textAfter? heq⟩
  · split at h
    · rename_i found heq
      cases h
      split at heq
      · exact ⟨_, eq_append_of_textAfter? heq⟩
      · cases heq
    · split at h
      · cases h
        exact ⟨"", by simp⟩
      · cases h

/-- The id of a built-in module can be asked for if another of its specifiers can. -/
theorem flaw?_of_builtinName? {resolver : Resolver} {specifier name : String}
    (hn : resolver.builtinName? specifier = some name) (hf : flaw? specifier = none) :
    flaw? (builtinPrefix ++ name) = none := by
  obtain ⟨front, rfl⟩ := builtinName?_eq_some hn
  simp only [flaw?, String.toList_append] at hf ⊢
  split at hf
  · cases hf
  · split at hf
    · cases hf
    · rename_i hnull
      have hclean : ¬ (builtinPrefix.toList ++ name.toList).contains '\x00' = true := by
        simpa [builtinPrefix] using fun h => hnull (by simp [h])
      rw [if_neg (by simp [builtinPrefix]), if_neg hclean]

/-- What a specifier of a built-in module resolves to is the id of this module. -/
theorem resolve_builtin {resolver : Resolver} (fs : FileSystem) {specifier name : String}
    (context : ResolveContext) (hn : resolver.builtinName? specifier = some name) :
    ∀ resolution, (resolver.resolve fs specifier context).1 = .ok resolution →
      resolution = ⟨builtinPrefix ++ name, some .virtual, false⟩ ∧
        flaw? (builtinPrefix ++ name) = none := by
  intro resolution h
  simp only [resolve, hn] at h
  split at h
  · cases h
  · rename_i hflaw
    split at h
    · cases h
      exact ⟨rfl, flaw?_of_builtinName? hn hflaw⟩
    · cases h

end Resolver

end ScriptModules
