import ScriptModules.Proofs.Loader.Composition

/-!
# What a reload comes to

A reload resolves its specifier, forgets the module this names, and then requires the
canonical id as if it were a specifier itself (`Renews`).  It is answered exactly when these
calls are, and its report is made of what they give.
-/

namespace ScriptModules

variable {σ H : Type} {n : Kind}

/-- What is reported of a reload. -/
def Reload.report (reload : Reload) (resolved : Option String) (wasCached : Bool)
    (result : Except ModuleError Handle) (last : Session σ H) : ReloadResult :=
  { specifier := reload.specifier
    resolved
    wasCached
    outcome := result.map last.exports.toJson
    loads := .between reload.before last.loader.registry.loads }

/-- A reload that begins now. -/
def Session.reloadOf (session : Session σ H) (specifier : String) (base : Path) : Reload :=
  ⟨specifier, base, session.loader.registry.loads⟩

/-- Whether a load of the module under a key is under way. -/
def Registry.isLoading (registry : Registry) (key : String) : Bool :=
  (registry.find? key).any fun record => !record.state.isTerminal

namespace Session

/-- What a built-in module has to offer to a reload. -/
def builtinResult (session : Session σ H) (reload : Reload) (name : String) :
    Except ModuleError Handle :=
  match session.loader.builtins.lookup name with
  | some handle => .ok handle
  | none => .error (.notFound reload.specifier reload.base.toString)

/-- What becomes of a reload when its specifier has been resolved: the report, and what it
leaves of the loader. -/
inductive Renews (host : Host σ H) (reload : Reload) (middle : Session σ H) :
    Except ModuleError Resolution → ReloadResult → Session σ H → Prop where
  | unresolved {e : ModuleError} :
      Renews host reload middle (.error e) (reload.report none false (.error e) middle) middle
  /-- A built-in module is given as it is. -/
  | builtin {resolution : Resolution} {name : String}
      (hb : textAfter? builtinPrefix resolution.url = some name) :
      Renews host reload middle (.ok resolution)
        (reload.report (some resolution.url)
          (middle.loader.registry.lookup? resolution.url).isSome
          (middle.builtinResult reload name) middle) middle
  | inFlight {resolution : Resolution} (hb : textAfter? builtinPrefix resolution.url = none)
      (hf : middle.loader.registry.isLoading resolution.url = true) :
      Renews host reload middle (.ok resolution)
        (reload.report (some resolution.url) false (.error (.loadInProgress resolution.url)) middle)
        middle
  /-- Any other module is forgotten and required by its canonical id. -/
  | required {resolution : Resolution} {result : Except ModuleError LoadedModule}
      {last : Session σ H} (hb : textAfter? builtinPrefix resolution.url = none)
      (hf : middle.loader.registry.isLoading resolution.url = false)
      (h : Answers host (middle.forget resolution.url).2 (.require resolution.url reload.base)
        result last) :
      Renews host reload middle (.ok resolution)
        (reload.report (some resolution.url) (middle.forget resolution.url).1
          (result.map (·.2)) last) last

variable {host : Host σ H} {session middle last : Session σ H} {reload : Reload}
  {specifier : String} {base : Path} {report : ReloadResult}

theorem comes_finishReload_iff {resolved : Option String} {wasCached : Bool}
    {result : Except ModuleError Handle} :
    Comes host (session.finishReload reload resolved wasCached result .nil).1
        (session.finishReload reload resolved wasCached result .nil).2
        (report : Value σ H .reload) last ↔
      report = reload.report resolved wasCached result session ∧ last = session :=
  comes_done_iff

/-- What is done with the resolution is what becomes of the reload. -/
theorem comes_receiveReload_iff {result : Except ModuleError Resolution} :
    Comes host (middle.receiveReload host reload result .nil).1
        (middle.receiveReload host reload result .nil).2 (report : Value σ H .reload) last ↔
      Renews host reload middle result report last := by
  cases result with
  | error e =>
      refine comes_finishReload_iff.trans ⟨?_, ?_⟩
      · rintro ⟨rfl, rfl⟩
        exact .unresolved
      · intro h
        cases h
        exact ⟨rfl, rfl⟩
  | ok resolution =>
      unfold receiveReload
      simp only
      split
      · rename_i name hb
        refine comes_finishReload_iff.trans ⟨?_, fun h => ?_⟩
        · rintro ⟨rfl, rfl⟩
          exact .builtin hb
        · cases h with
          | builtin hb' =>
              cases hb.symm.trans hb'
              exact ⟨rfl, rfl⟩
          | inFlight hb' _ => cases hb.symm.trans hb'
          | required hb' _ _ => cases hb.symm.trans hb'
      · rename_i hb
        split
        · rename_i hf
          refine comes_finishReload_iff.trans ⟨?_, fun h => ?_⟩
          · rintro ⟨rfl, rfl⟩
            exact .inFlight hb hf
          · cases h with
            | builtin hb' => cases hb.symm.trans hb'
            | inFlight _ _ => exact ⟨rfl, rfl⟩
            | required _ hf' _ => exact absurd (hf.symm.trans hf') (by decide)
        · rename_i hf
          have hf : middle.loader.registry.isLoading resolution.url = false :=
            Bool.eq_false_iff.mpr hf
          refine comes_startLoad_iff.trans ⟨?_, fun h => ?_⟩
          · rintro ⟨result, later, hrequired, hrest⟩
            obtain ⟨rfl, rfl⟩ := comes_finishReload_iff.mp (comes_resume_iff.mp hrest)
            exact .required hb hf hrequired
          · cases h with
            | builtin hb' => cases hb.symm.trans hb'
            | inFlight _ hf' => exact absurd (hf.symm.trans hf') (by decide)
            | @required _ result _ _ _ hrequired =>
                refine ⟨result, last, hrequired, comes_resume_iff.mpr ?_⟩
                exact comes_finishReload_iff.mpr ⟨rfl, rfl⟩

/-- A reload is answered exactly as its parts are. -/
theorem answers_reload_iff_renews :
    Answers host session (.reload specifier base) report last ↔
      ∃ (result : Except ModuleError Resolution) (middle : Session σ H),
        Answers host session (.resolve specifier base) result middle ∧
          Renews host (session.reloadOf specifier base) middle result report last := by
  refine answers_reload_iff.trans ?_
  refine comes_startResolve_iff.trans (exists_congr fun result => exists_congr fun middle => ?_)
  exact and_congr_right fun _ => comes_resume_iff.trans comes_receiveReload_iff

/-- When it is known what the specifier resolves to, the rest decides. -/
theorem reload_iff_of_resolve {result : Except ModuleError Resolution}
    (h : Answers host session (.resolve specifier base) result middle) :
    Answers host session (.reload specifier base) report last ↔
      Renews host (session.reloadOf specifier base) middle result report last := by
  refine answers_reload_iff_renews.trans ⟨?_, fun hrenews => ⟨result, middle, h, hrenews⟩⟩
  rintro ⟨result', middle', h', hrenews⟩
  obtain ⟨rfl, rfl⟩ := resolve_unique h h'
  exact hrenews

/-- A module that is not built in and not in flight is required by its id. -/
theorem reload_iff_required {resolution : Resolution}
    (h : Answers host session (.resolve specifier base) (.ok resolution) middle)
    (hb : textAfter? builtinPrefix resolution.url = none)
    (hf : middle.loader.registry.isLoading resolution.url = false) :
    Answers host session (.reload specifier base) report last ↔
      ∃ result, Answers host (middle.forget resolution.url).2 (.require resolution.url base)
          result last ∧
        report = (session.reloadOf specifier base).report (some resolution.url)
          (middle.forget resolution.url).1 (result.map (·.2)) last := by
  refine (reload_iff_of_resolve h).trans ⟨fun hrenews => ?_, ?_⟩
  · cases hrenews with
    | builtin hb' => cases hb.symm.trans hb'
    | inFlight _ hf' => cases hf.symm.trans hf'
    | required _ _ hrequired => exact ⟨_, hrequired, rfl⟩
  · rintro ⟨result, hrequired, rfl⟩
    exact .required hb hf hrequired

/-- What is reported as resolved is what the specifier resolved to. -/
theorem Renews.resolved {result : Except ModuleError Resolution}
    (h : Renews host reload middle result report last) :
    report.resolved = result.toOption.map (·.url) := by
  cases h <;> rfl

end Session

end ScriptModules
