import Mathlib.Data.List.Perm.Subperm
import ScriptModules.Proofs.Loader.Dispatches

/-!
# Which load is that of the entry module

Hooks are told whether they are asked for the entry module.  In every run they are told so of the
first load that is begun, and of no other (`Traffic.marksEntry`).

The first load need not be one the embedder asks for.  A reload loads its module anew, and if
nothing was loaded before, this is the first load: hooks are told that it is of the entry module,
and of the module that the embedder requires afterwards they are not (`Traffic.not_marksOwn`).
-/

namespace ScriptModules

variable {σ H : Type} {k m n : Kind}

/-! ## What is marked -/

namespace Dispatch

/-- The load that begins with it, if such a caller counts. -/
def begun? (counts : Caller → Bool) : Dispatch → Option (Caller × LoadOrder)
  | .resolve caller order => if counts caller then some (caller, order) else none
  | _ => none

/-- The first load of such a caller. -/
def first? (counts : Caller → Bool) (dispatches : List Dispatch) : Option (Caller × LoadOrder) :=
  dispatches.findSome? (begun? counts)

/-- What is put to hooks for one load.  They are asked to load a module only if its specifier is
resolved, and if the module is not there. -/
def ofLoad (begun : Caller × LoadOrder) (reached : Option Load) : List Dispatch :=
  .resolve begun.1 begun.2 :: (reached.map (.load begun.1 begun.2)).toList

/-- Hooks are told of the first load of such a caller that it is for the entry module, and of
nothing else. -/
def MarksOnly (counts : Caller → Bool) (dispatches : List Dispatch) : Prop :=
  ∃ reached, dispatches.filter isMain =
    ((first? counts dispatches).map fun begun => ofLoad begun reached).getD []

/-- What is asked of hooks from the start: nothing is loaded, or hooks are told of the first load
that it is for the entry module, and of no other.  No body asks for it. -/
inductive MarksFirst : List Dispatch → Prop where
  | looks {dispatches : List Dispatch}
      (h : ∀ asked ∈ dispatches, asked.caller? = none ∧ asked.isMain = false) :
      MarksFirst dispatches
  | loads {earlier later : List Dispatch} {caller : Caller} {order : LoadOrder}
      (h : ∀ asked ∈ earlier, asked.caller? = none ∧ asked.isMain = false)
      (hm : order.isMain = true) (hc : caller ≠ .body) (reached : Option Load)
      (hl : later.filter isMain = (reached.map (.load caller order)).toList) :
      MarksFirst (earlier ++ .resolve caller order :: later)

variable {counts : Caller → Bool} {dispatches earlier later : List Dispatch}
  {begun : Caller × LoadOrder} {caller : Caller} {order : LoadOrder} {reached : Option Load}

theorem counts_of_first? (h : first? counts dispatches = some begun) : counts begun.1 = true := by
  obtain ⟨asked, -, hasked⟩ := List.exists_of_findSome?_eq_some h
  cases asked with
  | resolve caller order =>
      simp only [begun?] at hasked
      split at hasked
      · cases hasked
        assumption
      · cases hasked
  | _ => cases hasked

theorem first?_eq_none (h : ∀ asked ∈ dispatches, asked.caller? = none ∧ asked.isMain = false) :
    first? counts dispatches = none := by
  refine List.findSome?_eq_none_iff.mpr fun asked hasked => ?_
  cases asked with
  | resolve caller order => cases (h _ hasked).1
  | _ => rfl

theorem filter_isMain_eq_nil
    (h : ∀ asked ∈ dispatches, asked.caller? = none ∧ asked.isMain = false) :
    dispatches.filter isMain = [] :=
  List.filter_eq_nil_iff.mpr fun asked hasked => by simp [(h asked hasked).2]

/-- The load that is the first of all is the first of its caller. -/
theorem first?_loads (h : ∀ asked ∈ earlier, asked.caller? = none ∧ asked.isMain = false)
    (hc : counts caller = true) :
    first? counts (earlier ++ .resolve caller order :: later) = some (caller, order) := by
  have hnone : earlier.findSome? (begun? counts) = none := first?_eq_none h
  rw [first?, List.findSome?_append, hnone, List.findSome?_cons, begun?, if_pos hc]
  rfl

theorem filter_loads (h : ∀ asked ∈ earlier, asked.caller? = none ∧ asked.isMain = false)
    (hm : order.isMain = true)
    (hl : later.filter isMain = (reached.map (.load caller order)).toList) :
    (earlier ++ .resolve caller order :: later).filter isMain = ofLoad (caller, order) reached := by
  rw [List.filter_append, filter_isMain_eq_nil h, List.filter_cons_of_pos (by exact hm), hl]
  rfl

theorem marksOnly_looks (counts : Caller → Bool)
    (h : ∀ asked ∈ dispatches, asked.caller? = none ∧ asked.isMain = false) :
    MarksOnly counts dispatches := by
  refine ⟨none, ?_⟩
  rw [filter_isMain_eq_nil h, first?_eq_none h]
  rfl

theorem MarksFirst.marksOnly (h : MarksFirst dispatches) :
    MarksOnly (fun _ => true) dispatches := by
  cases h with
  | looks h => exact marksOnly_looks _ h
  | loads h hm _ reached hl =>
      refine ⟨reached, ?_⟩
      rw [filter_loads h hm hl, first?_loads h rfl]
      rfl

theorem MarksFirst.not_isMain (h : MarksFirst dispatches) {asked : Dispatch}
    (ha : asked ∈ dispatches) (hc : asked.caller? = none ∨ asked.caller? = some .body) :
    asked.isMain = false := by
  cases h with
  | looks h => exact (h asked ha).2
  | @loads earlier later caller order h hm hbody reached hl =>
      cases hmain : asked.isMain with
      | false => rfl
      | true =>
          have hmem := List.mem_filter.mpr ⟨ha, hmain⟩
          rw [filter_loads h hm hl] at hmem
          have hcaller : asked.caller? = some caller := by
            rcases List.mem_cons.mp hmem with rfl | hload
            · rfl
            · obtain ⟨load, -, rfl⟩ := Option.map_eq_some_iff.mp (Option.mem_toList.mp hload)
              rfl
          rw [hcaller] at hc
          rcases hc with hnever | hnever
          · cases hnever
          · exact absurd (Option.some.inj hnever) hbody

/-- So it is the first load of the embedder that is marked, unless a reload comes before. -/
theorem MarksFirst.marksOnly_embedder_iff (h : MarksFirst dispatches) :
    MarksOnly (· == .embedder) dispatches ↔
      ∀ begun, first? (fun _ => true) dispatches = some begun → begun.1 ≠ .reload := by
  cases h with
  | looks h =>
      refine ⟨fun _ begun hbegun => ?_, fun _ => marksOnly_looks _ h⟩
      rw [first?_eq_none h] at hbegun
      cases hbegun
  | @loads earlier later caller order h hm hbody reached hl =>
      have hfirst : first? (fun _ => true) (earlier ++ .resolve caller order :: later) =
          some (caller, order) := first?_loads h rfl
      rw [hfirst]
      constructor
      · rintro ⟨reply, hmarks⟩ _ ⟨⟩ rfl
        rw [filter_loads h hm hl] at hmarks
        cases hown : first? (· == .embedder) (earlier ++ .resolve .reload order :: later) with
        | none =>
            rw [hown] at hmarks
            cases hmarks
        | some begun =>
            have hcounts := counts_of_first? hown
            rw [hown] at hmarks
            injection (List.cons.inj hmarks).1 with hcaller
            rw [← hcaller] at hcounts
            cases hcounts
      · intro hreload
        have hembedder : caller = .embedder := by
          have hnever := hreload _ rfl
          cases caller with
          | embedder => rfl
          | body => exact absurd rfl hbody
          | reload => exact absurd rfl hnever
        subst hembedder
        refine ⟨reached, ?_⟩
        rw [filter_loads h hm hl, first?_loads h rfl]
        rfl

end Dispatch

/-! ## Entry modules that are being resolved -/

/-- The load that begins now would be the first. -/
structure Session.IsUnasked (session : Session σ H) : Prop where
  main : session.loader.mainLoaded = false
  executing : session.loader.executing = 0

/-- The order of an entry module whose specifier a frame waits for. -/
def Frame.main? : Frame σ H k m → Option LoadOrder
  | .resolving order => if order.isMain then some order else none
  | _ => none

/-- The loads of entry modules whose specifiers the frames of a stack wait for. -/
def Stack.mains : {k n : Kind} → Stack σ H k n → List (Caller × LoadOrder)
  | _, _, .nil => []
  | _, _, .cons frame rest => (frame.main?.map (rest.caller, ·)).toList ++ rest.mains

/-- Those that are left to do. -/
def Progress.mains (progress : Progress σ H n) : List (Caller × LoadOrder) :=
  (progress.focus?.map fun focus => focus.stack.mains).getD []

theorem Frame.main?_of_load? {frame : Frame σ H k m} {load : Load} (h : frame.load? = some load) :
    frame.main? = none := by
  cases frame with
  | resolving order => cases h
  | _ => rfl

theorem Stack.mains_of_load? {frame : Frame σ H k m} {load : Load} (h : frame.load? = some load)
    (rest : Stack σ H m n) : (Stack.cons frame rest).mains = rest.mains := by
  rw [Stack.mains, Frame.main?_of_load? h]
  rfl

/-- What a step may do to these loads: the hooks are asked on behalf of one of them, and it is
gone, or hooks are not told of an entry module. -/
inductive Hands (before : List (Caller × LoadOrder)) :
    Option Dispatch → List (Caller × LoadOrder) → Prop where
  | keeps {dispatch : Option Dispatch} {after : List (Caller × LoadOrder)}
      (hd : ∀ asked ∈ dispatch, asked.isMain = false) (h : after.Subperm before) :
      Hands before dispatch after
  | hands {caller : Caller} {order : LoadOrder} {load : Load} {after : List (Caller × LoadOrder)}
      (hm : order.isMain = true) (h : ((caller, order) :: after).Perm before) :
      Hands before (some (.load caller order load)) after

theorem Hands.refl (before : List (Caller × LoadOrder)) : Hands before none before :=
  .keeps nofun (.refl _)

namespace Session

variable {host : Host σ H} {session : Session σ H}

theorem startLoad_hands (host : Host σ H) (h : session.loader.mainLoaded = true) (mode : LoadMode)
    (specifier : String) (base : Path) (stack : Stack σ H .module n) :
    Hands stack.mains (session.startLoad host mode specifier base stack).1.resolving?
        (session.startLoad host mode specifier base stack).1.stack.mains ∧
      (session.startLoad host mode specifier base stack).2.loader.mainLoaded = true := by
  have hmain : (session.ordering mode specifier base).isMain = false := by
    simp only [ordering, h, Bool.not_true, Bool.and_false]
  have hsame : (session.startLoad host mode specifier base stack).1.stack.mains = stack.mains := by
    show ((Frame.main? (.resolving (session.ordering mode specifier base) :
      Frame σ H .resolution .module)).map _).toList ++ stack.mains = stack.mains
    rw [Frame.main?, hmain]
    rfl
  refine ⟨?_, ?_⟩
  · rw [resolving?_startLoad, hsame]
    refine .keeps ?_ (.refl _)
    rintro _ ⟨⟩
    exact hmain
  · show (session.loader.mainLoaded || _) = true
    rw [h, Bool.true_or]

theorem receiveResolution_hands (host : Host σ H) (order : LoadOrder)
    (answer : Except ModuleError Resolution) (stack : Stack σ H .module n)
    (session : Session σ H) :
    Hands (Stack.cons (.resolving order) stack).mains
        ((receiveResolution host order answer stack session).1.loading? order)
        (receiveResolution host order answer stack session).1.stack.mains ∧
      (receiveResolution host order answer stack session).2.loader.mainLoaded =
        session.loader.mainLoaded := by
  have hmeets := receiveResolution_meets host order answer stack session
  generalize receiveResolution host order answer stack session = result at hmeets ⊢
  cases hmeets with
  | ends h => exact ⟨.keeps nofun (List.sublist_append_right _ _).subperm, congrArg Prod.snd h⟩
  | @asks load format after hooks main =>
      refine ⟨?_, main⟩
      show Hands (((Frame.main? (.resolving order : Frame σ H .resolution .module)).map
        (stack.caller, ·)).toList ++ stack.mains) (some (.load stack.caller order load)) stack.mains
      cases hmain : order.isMain with
      | false =>
          refine .keeps ?_ (List.sublist_append_right _ _).subperm
          rintro _ ⟨⟩
          exact hmain
      | true =>
          rw [Frame.main?, hmain]
          exact .hands hmain (.refl _)

theorem receiveReload_hands (host : Host σ H) (h : session.loader.mainLoaded = true)
    (reload : Reload) (answer : Except ModuleError Resolution) (stack : Stack σ H .reload n) :
    Hands stack.mains (receiveReload host reload answer stack session).1.resolving?
        (receiveReload host reload answer stack session).1.stack.mains ∧
      (receiveReload host reload answer stack session).2.loader.mainLoaded = true := by
  have hrestarts := receiveReload_restarts host reload answer stack session
  generalize receiveReload host reload answer stack session = result at hrestarts ⊢
  cases hrestarts with
  | ends hsame _ => exact ⟨.refl _, (congrArg Prod.snd hsame).trans h⟩
  | @begins key wasCached middle hsame _ =>
      exact startLoad_hands host ((congrArg Prod.snd hsame).trans h) .immediate key reload.base
        (.cons (.renewing reload key wasCached) stack)

theorem resume_hands (host : Host σ H) (h : session.loader.mainLoaded = true)
    (frame : Frame σ H k m) (value : Value σ H k) (stack : Stack σ H m n) :
    Hands (Stack.cons frame stack).mains (frame.dispatch? (resume host frame value stack session).1)
        (resume host frame value stack session).1.stack.mains ∧
      (resume host frame value stack session).2.loader.mainLoaded = true := by
  cases frame using Frame.cases_load with
  | asking next => exact ⟨.refl _, h⟩
  | counting => exact ⟨.refl _, h⟩
  | resolving order =>
      obtain ⟨hhands, hmain⟩ := receiveResolution_hands host order value stack session
      exact ⟨hhands, hmain.trans h⟩
  | loading frame load hf =>
      have hcontinues := resume_continues host value stack session hf
      rw [Stack.mains_of_load? hf, Frame.dispatch?_of_load? hf]
      refine ⟨?_, (congrArg Prod.snd hcontinues.reception).trans h⟩
      generalize resume host frame value stack session = result at hcontinues ⊢
      cases hcontinues with
      | waits _ hnext _ =>
          show Hands stack.mains none (Stack.mains (.cons _ stack))
          rw [Stack.mains_of_load? hnext]
          exact .refl _
      | runs _ => exact .refl _
      | ends _ => exact .refl _
  | reloading reload => exact receiveReload_hands host h reload value stack
  | renewing reload key wasCached => exact ⟨.refl _, h⟩

/-- When a load has begun, a step of a task tells hooks of an entry module only on behalf of a
load that waits for its specifier. -/
theorem step_hands (host : Host σ H) (h : session.loader.mainLoaded = true) (focus : Focus σ H n) :
    Hands focus.stack.mains (session.dispatch? host focus) (session.step host focus).1.mains ∧
      (session.step host focus).2.loader.mainLoaded = true := by
  obtain ⟨kind, work, stack⟩ := focus
  cases work with
  | done value =>
      cases stack with
      | nil => exact ⟨.refl _, h⟩
      | cons frame rest => exact resume_hands host h frame value rest
  | ask request next =>
      cases request with
      | request request =>
          cases request with
          | operation operation => exact ⟨.refl _, (keeps_perform session operation).2.1.trans h⟩
          | resolve specifier base =>
              refine ⟨.keeps ?_ (.refl _), h⟩
              rintro _ ⟨⟩
              rfl
          | require specifier base =>
              exact startLoad_hands host h .immediate specifier base (.cons (.asking next) stack)
          | reload specifier base =>
              refine ⟨.keeps ?_ (.refl _), h⟩
              rintro _ ⟨⟩
              rfl
      | pause =>
          rcases step_pause host next stack session with heq | heq <;> rw [heq] <;>
            exact ⟨.refl _, h⟩
      | _ => exact ⟨.refl _, h⟩

end Session

/-! ## Nothing asked to be loaded yet -/

/-- Whether a frame is there only if a load has begun. -/
def Frame.needsLoad : Frame σ H k m → Bool
  | .asking _ | .reloading _ => false
  | _ => true

/-- Whether some frame of a stack is. -/
def Stack.needsLoad : {k n : Kind} → Stack σ H k n → Bool
  | _, _, .nil => false
  | _, _, .cons frame rest => frame.needsLoad || rest.needsLoad

theorem Stack.mains_of_not_needsLoad {stack : Stack σ H k n} (h : stack.needsLoad = false) :
    stack.mains = [] := by
  induction stack with
  | nil => rfl
  | cons frame rest ih =>
      obtain ⟨hframe, hrest⟩ := Bool.or_eq_false_iff.mp h
      cases frame with
      | asking next => exact ih hrest
      | reloading reload => exact ih hrest
      | _ => cases hframe

theorem Stack.runsBody_of_not_needsLoad {stack : Stack σ H k n} (h : stack.needsLoad = false) :
    stack.runsBody = false := by
  cases stack with
  | nil => rfl
  | cons frame rest =>
      cases frame with
      | executing load exports => cases (Bool.or_eq_false_iff.mp h).1
      | _ => rfl

theorem Stack.caller_of_not_needsLoad {stack : Stack σ H k n} (h : stack.needsLoad = false) :
    stack.caller = .embedder := by
  cases stack with
  | nil => rfl
  | cons frame rest =>
      obtain ⟨hframe, hrest⟩ := Bool.or_eq_false_iff.mp h
      cases frame with
      | asking next =>
          rw [Stack.caller, Stack.runsBody_of_not_needsLoad hrest]
          rfl
      | reloading reload => rfl
      | _ => cases hframe

theorem Stack.caller_ne_body {stack : Stack σ H k n} (h : stack.needsLoad = false) :
    stack.caller ≠ .body := by
  rw [Stack.caller_of_not_needsLoad h]
  exact Caller.noConfusion

/-- What an event may do when nothing has been asked to be loaded.  Either this stays so, or the
first load begins, of which hooks are told that it is of the entry module. -/
inductive Enters (dispatch : Option Dispatch) (idle : Prop) (mains : List (Caller × LoadOrder))
    (after : Session σ H) : Prop where
  | looks (hd : ∀ asked ∈ dispatch, asked.caller? = none ∧ asked.isMain = false) (hi : idle)
      (h : after.IsUnasked)
  | begins {caller : Caller} {order : LoadOrder} (hd : dispatch = some (.resolve caller order))
      (hm : order.isMain = true) (hc : caller ≠ .body) (hs : mains = [(caller, order)])
      (h : after.loader.mainLoaded = true)

theorem Enters.imp {dispatch : Option Dispatch} {idle quiet : Prop}
    {mains others : List (Caller × LoadOrder)} {after : Session σ H}
    (h : Enters dispatch idle mains after) (hi : idle → quiet) (hm : others.Perm mains) :
    Enters dispatch quiet others after := by
  cases h with
  | looks hd hidle hafter => exact .looks hd (hi hidle) hafter
  | begins hd hmain hc hs hafter =>
      rw [hs] at hm
      exact .begins hd hmain hc (List.perm_singleton.mp hm) hafter

namespace Session

variable {session : Session σ H}

theorem startLoad_enters (host : Host σ H) (h : session.IsUnasked) (mode : LoadMode)
    (specifier : String) (base : Path) (stack : Stack σ H .module n) (hs : stack.mains = [])
    (hc : stack.caller ≠ .body) (idle : Prop) :
    Enters (session.startLoad host mode specifier base stack).1.resolving? idle
      (session.startLoad host mode specifier base stack).1.stack.mains
      (session.startLoad host mode specifier base stack).2 := by
  have hmain : (session.ordering mode specifier base).isMain = true := by
    simp [ordering, h.main, h.executing]
  refine .begins (resolving?_startLoad ..) hmain hc ?_ ?_
  · show ((Frame.main? (.resolving (session.ordering mode specifier base) :
      Frame σ H .resolution .module)).map (stack.caller, ·)).toList ++ stack.mains = _
    rw [Frame.main?, hmain, hs]
    rfl
  · show (session.loader.mainLoaded || (session.ordering mode specifier base).isMain) = true
    rw [hmain, Bool.or_true]

theorem receiveReload_enters (host : Host σ H) (h : session.IsUnasked) (reload : Reload)
    (answer : Except ModuleError Resolution) {stack : Stack σ H .reload n}
    (hs : stack.needsLoad = false) :
    Enters (receiveReload host reload answer stack session).1.resolving?
      ((receiveReload host reload answer stack session).1.stack.needsLoad = false)
      (receiveReload host reload answer stack session).1.stack.mains
      (receiveReload host reload answer stack session).2 := by
  have hrestarts := receiveReload_restarts host reload answer stack session
  generalize receiveReload host reload answer stack session = result at hrestarts ⊢
  cases hrestarts with
  | ends hsame he =>
      exact .looks nofun hs ⟨(congrArg Prod.snd hsame).trans h.main, he.trans h.executing⟩
  | @begins key wasCached middle hsame he =>
      have hunasked : middle.IsUnasked :=
        ⟨(congrArg Prod.snd hsame).trans h.main, he.trans h.executing⟩
      have hmains : stack.mains = [] := Stack.mains_of_not_needsLoad hs
      exact startLoad_enters host hunasked .immediate key reload.base
        (.cons (.renewing reload key wasCached) stack) hmains Caller.noConfusion _

/-- What a step of a task may do then. -/
theorem step_enters (host : Host σ H) (h : session.IsUnasked) {focus : Focus σ H n}
    (hs : focus.stack.needsLoad = false) :
    Enters (session.dispatch? host focus)
      (∀ next, (session.step host focus).1.focus? = some next → next.stack.needsLoad = false)
      (session.step host focus).1.mains (session.step host focus).2 := by
  obtain ⟨kind, work, stack⟩ := focus
  have hstays : ∀ {progress : Progress σ H n},
      (∀ next, progress.focus? = some next → next.stack.needsLoad = false) →
      Enters none (∀ next, progress.focus? = some next → next.stack.needsLoad = false)
        progress.mains session := fun hidle => .looks nofun hidle h
  have hlooks : ∀ {focus : Focus σ H n} {context : ResolveContext} {after : Session σ H},
      context.isMain = false → focus.stack.needsLoad = false → after.IsUnasked →
      Enters (some (.lookup context))
        (∀ next, (Progress.running focus).focus? = some next → next.stack.needsLoad = false)
        (Progress.running focus).mains after := by
    intro focus context after hcontext hidle hafter
    refine .looks ?_ ?_ hafter
    · rintro _ ⟨⟩
      exact ⟨rfl, hcontext⟩
    · rintro _ ⟨⟩
      exact hidle
  cases work with
  | done value =>
      cases stack with
      | nil => exact hstays nofun
      | cons frame rest =>
          obtain ⟨hframe, hrest⟩ := Bool.or_eq_false_iff.mp hs
          cases frame with
          | asking next =>
              refine hstays ?_
              rintro _ ⟨⟩
              exact hrest
          | reloading reload =>
              refine (receiveReload_enters host h reload value hrest).imp ?_ (.refl _)
              rintro hidle _ ⟨⟩
              exact hidle
          | _ => cases hframe
  | ask request next =>
      cases request with
      | request request =>
          cases request with
          | operation operation =>
              obtain ⟨-, hmain, hexecuting⟩ := keeps_perform session operation
              refine .looks nofun ?_ ⟨hmain.trans h.main, hexecuting.trans h.executing⟩
              rintro _ ⟨⟩
              exact hs
          | resolve specifier base => exact hlooks rfl hs ⟨h.main, h.executing⟩
          | require specifier base =>
              have hidle : Stack.needsLoad (.cons (.asking next) stack : Stack σ H .module n) =
                  false := hs
              exact startLoad_enters host h .immediate specifier base _
                (Stack.mains_of_not_needsLoad hidle) (Stack.caller_ne_body hidle) _
          | reload specifier base => exact hlooks rfl hs ⟨h.main, h.executing⟩
      | pause =>
          rcases step_pause host next stack session with heq | heq <;> rw [heq]
          · refine hstays ?_
            rintro _ ⟨⟩
            exact hs
          · refine hstays ?_
            rintro _ ⟨⟩
            exact hs
      | resolveDefault specifier context =>
          refine .looks nofun ?_ ⟨h.main, h.executing⟩
          rintro _ ⟨⟩
          exact hs
      | loadDefault url context =>
          refine hstays ?_
          rintro _ ⟨⟩
          exact hs

end Session

/-! ## Events -/

theorem Hands.congr {before first after last : List (Caller × LoadOrder)}
    {dispatch : Option Dispatch} (h : Hands first dispatch last) (hb : first.Perm before)
    (ha : after.Perm last) : Hands before dispatch after := by
  cases h with
  | keeps hd h => exact .keeps hd (ha.subperm.trans (h.trans hb.subperm))
  | hands hm h => exact .hands hm (((ha.cons _).trans h).trans hb)

theorem Hands.append {before after : List (Caller × LoadOrder)} {dispatch : Option Dispatch}
    (h : Hands before dispatch after) (others : List (Caller × LoadOrder)) :
    Hands (before ++ others) dispatch (after ++ others) := by
  cases h with
  | keeps hd h => exact .keeps hd ((List.subperm_append_right others).mpr h)
  | hands hm h => exact .hands hm (h.append_right others)

namespace Traffic

theorem openWith_unused {config : Config} {before files : FileSystem} {loader : Loader H}
    (h : Loader.openWith config before = (.ok loader, files)) :
    loader.mainLoaded = false ∧ loader.executing = 0 := by
  unfold Loader.openWith at h
  split at h
  · cases h
  · split at h
    · cases h
      exact ⟨rfl, rfl⟩
    · split at h
      · cases h
        exact ⟨rfl, rfl⟩
      · cases h

variable {host : Host σ H} {traffic : Traffic σ H}

/-- The loads of entry modules whose specifiers are being resolved. -/
def mains (traffic : Traffic σ H) : List (Caller × LoadOrder) :=
  traffic.tasks.flatMap (·.focus.stack.mains)

/-- Nothing has been asked to be loaded yet. -/
structure IsUnasked (traffic : Traffic σ H) : Prop where
  session : traffic.session.IsUnasked
  tasks : ∀ task ∈ traffic.tasks, task.focus.stack.needsLoad = false

theorem mains_start {started : Focus σ H n × Session σ H} :
    (traffic.start started).mains = traffic.mains ++ started.1.stack.mains := by
  unfold mains start
  rw [List.flatMap_append, List.flatMap_cons, List.flatMap_nil, List.append_nil]

theorem mains_perm {index : Nat} {task : Task σ H} (h : traffic.tasks[index]? = some task) :
    traffic.mains.Perm (task.focus.stack.mains ++
      (traffic.tasks.eraseIdx index).flatMap (·.focus.stack.mains)) :=
  flatMap_perm (fun task : Task σ H => task.focus.stack.mains) h

theorem IsUnasked.mains (h : traffic.IsUnasked) : traffic.mains = [] :=
  List.flatMap_eq_nil_iff.mpr fun task htask => Stack.mains_of_not_needsLoad (h.tasks task htask)

/-- When a load has begun, hooks are told of an entry module only on behalf of a load that waits
for its specifier. -/
theorem after_hands (h : traffic.session.loader.mainLoaded = true) (event : TrafficEvent σ H) :
    Hands traffic.mains (traffic.dispatch? host event) (traffic.after host event).mains ∧
      (traffic.after host event).session.loader.mainLoaded = true := by
  have hloads : ∀ mode specifier base,
      Hands traffic.mains
          (traffic.session.startLoad host mode specifier base .nil).1.resolving?
          (traffic.start (traffic.session.startLoad host mode specifier base .nil)).mains ∧
        (traffic.session.startLoad host mode specifier base .nil).2.loader.mainLoaded = true := by
    intro mode specifier base
    obtain ⟨hhands, hmain⟩ := Session.startLoad_hands host h mode specifier base .nil
    refine ⟨(hhands.append traffic.mains).congr (.refl _) ?_, hmain⟩
    rw [mains_start]
    exact List.perm_append_comm
  have hlooks : ∀ {n : Kind} {started : Focus σ H n × Session σ H} {context : ResolveContext},
      context.isMain = false → started.1.stack.mains = [] →
        Hands traffic.mains (some (.lookup context)) (traffic.start started).mains := by
    intro n started context hcontext hnone
    rw [mains_start, hnone, List.append_nil]
    refine .keeps ?_ (.refl _)
    rintro _ ⟨⟩
    exact hcontext
  cases event with
  | imported specifier base => exact hloads .suspendable specifier base
  | required specifier base => exact hloads .immediate specifier base
  | resolved specifier base => exact ⟨hlooks rfl rfl, h⟩
  | reloaded specifier base => exact ⟨hlooks rfl rfl, h⟩
  | operated operation =>
      exact ⟨.refl _, (Session.keeps_perform traffic.session operation).2.1.trans h⟩
  | changed surroundings => exact ⟨.refl _, h⟩
  | dropped index =>
      cases htask : traffic.tasks[index]? with
      | none =>
          simp only [after, dispatch?, htask]
          exact ⟨.refl _, h⟩
      | some task =>
          simp only [after, dispatch?, htask]
          refine ⟨.keeps ?_ ?_, h⟩
          · intro asked hasked
            cases hasked
          · exact (List.sublist_append_right _ _).subperm.trans (mains_perm htask).symm.subperm
  | advanced index =>
      cases htask : traffic.tasks[index]? with
      | none =>
          simp only [after, dispatch?, htask]
          exact ⟨.refl _, h⟩
      | some task =>
          simp only [after, dispatch?, htask, session_proceed]
          obtain ⟨hhands, hmain⟩ := Session.step_hands host h task.focus
          refine ⟨(hhands.append _).congr (mains_perm htask).symm ?_, hmain⟩
          exact flatMap_proceed (fun task => task.focus.stack.mains) htask _

/-- What an event may do when nothing has been asked to be loaded. -/
theorem IsUnasked.enters (host : Host σ H) (h : traffic.IsUnasked) (event : TrafficEvent σ H) :
    Enters (traffic.dispatch? host event)
      (∀ task ∈ (traffic.after host event).tasks, task.focus.stack.needsLoad = false)
      (traffic.after host event).mains (traffic.after host event).session := by
  have hstays : ∀ {tasks : List (Task σ H)} {mains : List (Caller × LoadOrder)},
      (∀ task ∈ tasks, task ∈ traffic.tasks) →
        Enters none (∀ task ∈ tasks, task.focus.stack.needsLoad = false) mains traffic.session :=
    fun hsub => .looks nofun (fun task htask => h.tasks task (hsub task htask)) h.session
  have hloads : ∀ mode specifier base (idle : Prop),
      Enters (traffic.session.startLoad host mode specifier base .nil).1.resolving? idle
        (traffic.start (traffic.session.startLoad host mode specifier base .nil)).mains
        (traffic.session.startLoad host mode specifier base .nil).2 := by
    intro mode specifier base idle
    refine (Session.startLoad_enters host h.session mode specifier base .nil rfl
      Caller.noConfusion idle).imp id ?_
    rw [mains_start, h.mains, List.nil_append]
  have hlooks : ∀ {n : Kind} {started : Focus σ H n × Session σ H} {context : ResolveContext}
      {mains : List (Caller × LoadOrder)}, context.isMain = false →
        started.1.stack.needsLoad = false → started.2.IsUnasked →
        Enters (some (.lookup context))
          (∀ task ∈ (traffic.start started).tasks, task.focus.stack.needsLoad = false) mains
          started.2 := by
    intro n started context mains hcontext hidle hafter
    refine .looks ?_ ?_ hafter
    · rintro _ ⟨⟩
      exact ⟨rfl, hcontext⟩
    · intro task htask
      rcases List.mem_append.mp htask with hold | hnew
      · exact h.tasks task hold
      · rw [List.mem_singleton.mp hnew]
        exact hidle
  have hunasked : traffic.session.IsUnasked := h.session
  cases event with
  | imported specifier base => exact hloads .suspendable specifier base _
  | required specifier base => exact hloads .immediate specifier base _
  | resolved specifier base => exact hlooks rfl rfl ⟨hunasked.main, hunasked.executing⟩
  | reloaded specifier base => exact hlooks rfl rfl ⟨hunasked.main, hunasked.executing⟩
  | operated operation =>
      obtain ⟨-, hmain, hexecuting⟩ := Session.keeps_perform traffic.session operation
      exact .looks nofun h.tasks ⟨hmain.trans hunasked.main, hexecuting.trans hunasked.executing⟩
  | changed surroundings => exact .looks nofun h.tasks ⟨hunasked.main, hunasked.executing⟩
  | dropped index =>
      cases htask : traffic.tasks[index]? with
      | none =>
          simp only [after, dispatch?, htask]
          exact hstays fun _ hmem => hmem
      | some task =>
          simp only [after, dispatch?, htask]
          exact hstays fun _ hmem => List.mem_of_mem_eraseIdx hmem
  | advanced index =>
      cases htask : traffic.tasks[index]? with
      | none =>
          simp only [after, dispatch?, htask]
          exact hstays fun _ hmem => hmem
      | some task =>
          simp only [after, dispatch?, htask, session_proceed]
          have hmem := List.mem_of_getElem? htask
          have hothers : (traffic.tasks.eraseIdx index).flatMap (·.focus.stack.mains) = [] :=
            List.flatMap_eq_nil_iff.mpr fun other hother =>
              Stack.mains_of_not_needsLoad (h.tasks other (List.mem_of_mem_eraseIdx hother))
          refine (Session.step_enters host hunasked (h.tasks task hmem)).imp ?_ ?_
          · intro hidle other hother
            have hlt := (List.getElem?_eq_some_iff.mp htask).1
            rcases mem_tasks_proceed hlt hother with hold | ⟨next, hnext, rfl⟩
            · exact h.tasks other (List.mem_of_mem_eraseIdx hold)
            · exact hidle next hnext
          · have hperm := flatMap_proceed (fun task => task.focus.stack.mains) htask
              (traffic.session.step host task.focus)
            rw [hothers, List.append_nil] at hperm
            exact hperm

/-! ## Runs -/

/-- When a load has begun, hooks are told of entry modules only when they are asked to load those
whose specifiers are being resolved. -/
theorem filter_dispatches_of_mainLoaded (host : Host σ H)
    (h : traffic.session.loader.mainLoaded = true) (events : List (TrafficEvent σ H)) :
    ∃ reached : List ((Caller × LoadOrder) × Load),
      (traffic.dispatches host events).filter (·.isMain) =
          reached.map (fun pair => .load pair.1.1 pair.1.2 pair.2) ∧
        (reached.map (·.1)).Subperm traffic.mains := by
  induction events generalizing traffic with
  | nil => exact ⟨[], rfl, List.nil_subperm⟩
  | cons event events ih =>
      obtain ⟨hhands, hmain⟩ := after_hands h event
      obtain ⟨reached, hreached, hsub⟩ := ih hmain
      rw [dispatches, List.filter_append, hreached]
      generalize traffic.dispatch? host event = dispatch at hhands ⊢
      cases hhands with
      | keeps hd hafter =>
          refine ⟨reached, ?_, hsub.trans hafter⟩
          rw [List.filter_eq_nil_iff.mpr, List.nil_append]
          intro asked hasked
          rw [hd asked (Option.mem_toList.mp hasked)]
          exact Bool.false_ne_true
      | @hands caller order load _ hm hbefore =>
          refine ⟨((caller, order), load) :: reached, ?_, ?_⟩
          · rw [Option.toList_some, List.filter_cons_of_pos (by exact hm)]
            rfl
          · exact ((List.subperm_cons _).mpr hsub).trans hbefore.subperm

/-- If this is so of one load only, they are told so at most once. -/
theorem filter_dispatches_of_mains (host : Host σ H)
    (h : traffic.session.loader.mainLoaded = true) {caller : Caller} {order : LoadOrder}
    (hs : traffic.mains = [(caller, order)]) (events : List (TrafficEvent σ H)) :
    ∃ reached : Option Load, (traffic.dispatches host events).filter (·.isMain) =
      (reached.map (Dispatch.load caller order)).toList := by
  obtain ⟨reached, hreached, hsub⟩ := filter_dispatches_of_mainLoaded host h events
  rw [hs] at hsub
  rw [hreached]
  cases reached with
  | nil => exact ⟨none, rfl⟩
  | cons pair rest =>
      have hlength : rest.length + 1 ≤ 1 := by simpa using hsub.length_le
      obtain rfl : rest = [] := List.eq_nil_of_length_eq_zero (by omega)
      have hpair : pair.1 = (caller, order) :=
        List.mem_singleton.mp (hsub.subset List.mem_cons_self)
      exact ⟨some pair.2, by rw [List.map_singleton, hpair]; rfl⟩

theorem IsUnasked.marksFirst (host : Host σ H) (h : traffic.IsUnasked)
    (events : List (TrafficEvent σ H)) : Dispatch.MarksFirst (traffic.dispatches host events) := by
  induction events generalizing traffic with
  | nil => exact .looks nofun
  | cons event events ih =>
      have henters := h.enters host event
      rw [dispatches]
      generalize traffic.dispatch? host event = dispatch at henters ⊢
      cases henters with
      | looks hd hi hafter =>
          have hfirst : ∀ asked ∈ dispatch.toList, asked.caller? = none ∧ asked.isMain = false :=
            fun asked hasked => hd asked (Option.mem_toList.mp hasked)
          have hmarks : Dispatch.MarksFirst ((traffic.after host event).dispatches host events) :=
            ih ⟨hafter, hi⟩
          generalize (traffic.after host event).dispatches host events = rest at hmarks ⊢
          cases hmarks with
          | looks hrest =>
              exact .looks fun asked hasked => (List.mem_append.mp hasked).elim (hfirst asked)
                (hrest asked)
          | loads hrest hm hc reached hl =>
              rw [← List.append_assoc]
              exact .loads (fun asked hasked => (List.mem_append.mp hasked).elim (hfirst asked)
                (hrest asked)) hm hc reached hl
      | @begins caller order hd hm hc hs hafter =>
          obtain ⟨reached, hreached⟩ := filter_dispatches_of_mains host hafter hs events
          rw [hd]
          show Dispatch.MarksFirst ([] ++ .resolve caller order :: _)
          exact .loads nofun hm hc reached hreached

/-! ## The entry module -/

/-- Of which loads hooks are told that they are of the entry module, all through a run. -/
structure MarksEntry (host : Host σ H) (start : Traffic σ H) : Prop where
  /-- Of the first one, whoever asks for it, and of no other. -/
  first : ∀ events, Dispatch.MarksOnly (fun _ => true) (start.dispatches host events)
  /-- So they are not told so of what bodies ask for, nor when no load has begun. -/
  others : ∀ events, ∀ asked ∈ start.dispatches host events,
    asked.caller? = none ∨ asked.caller? = some .body → asked.isMain = false
  /-- It is the first load that the embedder asks for, except if a reload begins one before. -/
  own : ∀ events, Dispatch.MarksOnly (· == .embedder) (start.dispatches host events) ↔
    ∀ begun, Dispatch.first? (fun _ => true) (start.dispatches host events) = some begun →
      begun.1 ≠ .reload
  /-- What is told here is what is asked of hooks at each event, and counted. -/
  counts : ∀ events event, Counts host (start.afterAll host events)
    ((start.afterAll host events).after host event)
    ((start.afterAll host events).dispatch? host event)

theorem isUnasked_opened {config : Config} {before : FileSystem} {loader : Loader H}
    {surroundings : Surroundings σ}
    (h : Loader.openWith config before = (.ok loader, surroundings.files)) :
    (opened surroundings loader).IsUnasked := by
  obtain ⟨hmain, hexecuting⟩ := openWith_unused h
  exact ⟨⟨hmain, hexecuting⟩, nofun⟩

/-- In every run of a loader hooks are told of the first load that it is of the entry module. -/
theorem marksEntry (host : Host σ H) {config : Config} {before : FileSystem} {loader : Loader H}
    {surroundings : Surroundings σ}
    (h : Loader.openWith config before = (.ok loader, surroundings.files)) :
    (opened surroundings loader).MarksEntry host := by
  have hmarks := (isUnasked_opened h).marksFirst host
  exact ⟨fun events => (hmarks events).marksOnly,
    fun events _ hasked hcaller => (hmarks events).not_isMain hasked hcaller,
    fun events => (hmarks events).marksOnly_embedder_iff,
    fun events event => after_counts host _ event⟩

/-! ## A reload after a load, and before one -/

/-- A module that requires itself is required, and reloaded when this is over. -/
def reloadedLater : List (TrafficEvent Unit Unit) :=
  .operated (.register (some { resolve := some (), load := some () })) ::
    .required "m" (.ofString "/") :: List.replicate 10 (.advanced 0) ++
      .reloaded "m" (.ofString "/") :: List.replicate 2 (.advanced 0)

/-- Hooks are told of an entry module as it is required, and not again. -/
theorem marksEntry_reloadedLater :
    (idleLoader.dispatches cyclicHost reloadedLater).map
        (fun asked => (asked.caller?, asked.isMain)) =
        [(some .embedder, true), (some .embedder, true), (some .body, false), (none, false),
          (some .reload, false), (some .reload, false)] ∧
      idleLoader.MarksEntry cyclicHost := by
  have hopen : Loader.openWith {} .empty =
      (.ok idleLoader.session.loader, idleLoader.session.files) := rfl
  have hmarks : (opened idleLoader.session.toSurroundings idleLoader.session.loader).MarksEntry
      cyclicHost := marksEntry cyclicHost hopen
  exact ⟨by decide +kernel, hmarks⟩

/-- Hooks are told of the first load that the embedder asks for that it is of the entry module,
and of no other, in any run of any loader. -/
def MarksOwn (σ H : Type) : Prop :=
  ∀ (host : Host σ H) (config : Config) (before : FileSystem) (loader : Loader H)
    (surroundings : Surroundings σ),
    Loader.openWith config before = (.ok loader, surroundings.files) →
      ∀ events, Dispatch.MarksOnly (· == .embedder) ((opened surroundings loader).dispatches host
        events)

/-- A module is reloaded before anything was loaded, and required when this is over. -/
def reloadedFirst : List (TrafficEvent Unit Unit) :=
  .operated (.register (some { resolve := some (), load := some () })) ::
    .reloaded "m" (.ofString "/") :: List.replicate 13 (.advanced 0) ++
      [.required "m" (.ofString "/")]

/-- Hooks are told that the module that is reloaded is the entry module, and of the one that is
required that it is not. -/
theorem not_marksOwn : ¬ MarksOwn Unit Unit := by
  intro hclaim
  have hopen : Loader.openWith {} .empty =
      (.ok idleLoader.session.loader, idleLoader.session.files) := rfl
  obtain ⟨reached, hmarks⟩ := hclaim cyclicHost {} .empty idleLoader.session.loader
    idleLoader.session.toSurroundings hopen reloadedFirst
  have hfirst : (Dispatch.first? (· == .embedder)
      (idleLoader.dispatches cyclicHost reloadedFirst)).map (·.2.isMain) = some false := by
    decide +kernel
  have hmarked : ((idleLoader.dispatches cyclicHost reloadedFirst).filter (·.isMain)).head?.bind
      (·.caller?) = some .reload := by
    decide +kernel
  obtain ⟨begun, hbegun, -⟩ := Option.map_eq_some_iff.mp hfirst
  have hcaller : (begun.1 == .embedder) = true := Dispatch.counts_of_first? hbegun
  have hhead : ((idleLoader.dispatches cyclicHost reloadedFirst).filter (·.isMain)).head? =
      some (.resolve begun.1 begun.2) := by
    have hlist := congrArg List.head? hmarks
    rw [show Dispatch.first? (· == .embedder) ((opened idleLoader.session.toSurroundings
      idleLoader.session.loader).dispatches cyclicHost reloadedFirst) = some begun from hbegun]
      at hlist
    exact hlist
  rw [hhead] at hmarked
  have hreload : begun.1 = .reload := Option.some.inj hmarked
  rw [hreload] at hcaller
  cases hcaller

end Traffic

end ScriptModules
