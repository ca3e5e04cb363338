import ScriptModules.Proofs.Loader.Exposing
import ScriptModules.Proofs.Loader.Hookless

/-!
# Loads of built-in modules

The contents of a built-in module are none, and the loader says so itself unless a hook is
asked.  So without hooks the load of a built-in module does no other work: it asks, it gets
the answer, and it ends with what the table of built-in modules has
(`Session.isPlain_step`, `Session.lookup_of_filled`).
-/

namespace ScriptModules

open Registry (Claim InFlight)

variable {σ H : Type} {k m n : Kind}

/-- The contents of a built-in module are none. -/
theorem Loader.loadDefault_builtin (config : Config) (fs : FileSystem) {key : String}
    (context : LoadContext) (h : (textAfter? builtinPrefix key).isSome = true) :
    loadDefault config fs key context = .ok ⟨.virtual, none, false⟩ := by
  simp only [loadDefault, h, if_true]

/-! ## Work -/

/-- Whether the load of a frame is one of a built-in module. -/
def Frame.isOfBuiltin (frame : Frame σ H k m) : Bool :=
  frame.load?.any fun load => (textAfter? builtinPrefix load.key).isSome

/-- Whether some frame of a stack is. -/
def Stack.loadsBuiltin : {k n : Kind} → Stack σ H k n → Bool
  | _, _, .nil => false
  | _, _, .cons frame rest => frame.isOfBuiltin || rest.loadsBuiltin

/-- A built-in module is loaded in two steps, in which no other work is done: its contents are
asked of the loader itself, and there are none. -/
inductive Focus.IsPlain : Focus σ H n → Prop where
  | other {focus : Focus σ H n} (h : focus.stack.loadsBuiltin = false) : IsPlain focus
  | asking {load : Load} {mode : LoadMode} {rest : Stack σ H .module n} (context : LoadContext)
      (hb : (textAfter? builtinPrefix load.key).isSome = true) (h : rest.loadsBuiltin = false) :
      IsPlain ⟨.reply, loadDirectly load.key context, .cons (.fetching load mode) rest⟩
  | given {load : Load} {mode : LoadMode} {rest : Stack σ H .module n}
      (hb : (textAfter? builtinPrefix load.key).isSome = true) (h : rest.loadsBuiltin = false) :
      IsPlain ⟨.reply, .done (.ready (.ok ⟨.virtual, none, false⟩)),
        .cons (.fetching load mode) rest⟩

/-- A frame of the same load loads a built-in module if the other does. -/
theorem Frame.isOfBuiltin_congr {k' m' : Kind} {frame : Frame σ H k m} {other : Frame σ H k' m'}
    (h : frame.load? = other.load?) : frame.isOfBuiltin = other.isOfBuiltin := by
  rw [Frame.isOfBuiltin, h, Frame.isOfBuiltin]

namespace Session

variable {host : Host σ H} {session : Session σ H} {claims : List Claim} {load : Load}
  {stack : Stack σ H .module n}

theorem Pursues.isPlain {frame : Frame σ H k .module} {record : ModuleRecord}
    {result : Focus σ H n × Session σ H} (h : Pursues load record stack session result)
    (hf : frame.load? = some load) (hp : (Stack.cons frame stack).loadsBuiltin = false) :
    result.1.IsPlain := by
  obtain ⟨hframe, hstack⟩ := Bool.or_eq_false_iff.mp hp
  cases h with
  | @waits kind work next _ _ _ hnext _ _ _ =>
      refine .other (Bool.or_eq_false_iff.mpr ⟨?_, hstack⟩)
      rw [← hframe]
      exact Frame.isOfBuiltin_congr (hnext.trans hf.symm)
  | begins _ _ _ _ _ =>
      refine .other (Bool.or_eq_false_iff.mpr ⟨?_, hstack⟩)
      rw [← hframe]
      exact Frame.isOfBuiltin_congr hf.symm
  | succeeds _ _ _ => exact .other hstack
  | fails _ _ _ => exact .other hstack

/-- The load of a built-in module ends with its contents. -/
theorem stack_finishBuiltin : (finishBuiltin load stack session).1.stack.loadsBuiltin =
    stack.loadsBuiltin := by
  simp only [finishBuiltin]
  split <;> rfl

theorem Admits.isPlain {order : LoadOrder} {answer : Except ModuleError Resolution}
    {result : Focus σ H n × Session σ H} (h : Admits host order stack session answer result)
    (hh : session.loader.IsHookless) (hs : stack.loadsBuiltin = false) : result.1.IsPlain := by
  cases h with
  | unresolved => exact .other hs
  | refused _ => exact .other hs
  | served _ => exact .other hs
  | @begins resolution _ =>
      have hbegun : (session.beginLoad resolution.url resolution.format
          order.base).2.loader.IsHookless := hh
      simp only [startFetch, loadWork_of_isHookless host hbegun]
      cases hb : (textAfter? builtinPrefix resolution.url).isSome with
      | true => exact .asking _ hb hs
      | false => exact .other (Bool.or_eq_false_iff.mpr ⟨hb, hs⟩)

theorem Reloads.isPlain {reload : Reload} {answer : Except ModuleError Resolution}
    {stack : Stack σ H .reload n} {result : Focus σ H n × Session σ H}
    (h : Reloads host reload stack session answer result) (hs : stack.loadsBuiltin = false) :
    result.1.IsPlain := by
  cases h <;> exact .other hs

/-- Without hooks, all work is and stays plain. -/
theorem isPlain_step (hh : session.loader.IsHookless) {focus next : Focus σ H n}
    (hp : focus.IsPlain) (hi : InFlight session.loader.registry (focus.claims ++ claims))
    (ht : session.loader.registry.Tabled) (h : (session.step host focus).1.GoesOn next) :
    next.IsPlain := by
  cases hp with
  | @asking load _ rest context hb hs =>
      cases h
      simp only [Loader.loadDefault_builtin _ _ _ hb]
      exact .given hb hs
  | @given load mode rest hb hs =>
      cases h
      exact .other (stack_finishBuiltin.trans hs)
  | other hs =>
      obtain ⟨kind, work, stack⟩ := focus
      cases work with
      | done value =>
          cases stack with
          | nil => exact absurd h not_goesOn_done
          | cons frame rest =>
              cases h
              have hframe := inFlight_frame hi
              cases frame using Frame.cases_load with
              | asking next => exact .other hs
              | counting => exact .other hs
              | resolving order => exact (admits host order value rest session).isPlain hh hs
              | loading frame load hf =>
                  obtain ⟨record, hr, -, -⟩ := record_of_frame hf hframe
                  have hpursues : Pursues load record rest session
                      (resume host frame value rest session) :=
                    resume_pursues host value hf hframe ht hr
                  exact hpursues.isPlain hf hs
              | reloading reload => exact (reloads host reload value rest session).isPlain hs
              | renewing reload key wasCached => exact .other hs
      | ask request ask =>
          cases request with
          | request request => cases request <;> cases h <;> exact .other hs
          | pause =>
              rcases step_pause host ask stack session with heq | heq <;> rw [heq] at h <;>
                cases h <;> exact .other hs
          | _ =>
              cases h
              exact .other hs

/-- A load that has a record gives exports to itself. -/
theorem load_of_filled {next : Focus σ H n} {act : LoadDeed} {other : Load} {handle : Handle}
    (ha : Frame.pursuit? load next = some act) (hf : act.filled? = some (other, handle)) :
    other = load := by
  unfold Frame.pursuit? at ha
  split at ha
  · cases ha
    cases hf
    rfl
  · rename_i result _
    cases ha
    cases result <;> cases hf
    rfl
  · cases ha

/-- A load that has none yet gives exports to no record. -/
theorem not_filled_of_arrival {next : Focus σ H n} {act : LoadDeed}
    (ha : Frame.arrival? next = some act) : act.filled? = none := by
  unfold Frame.arrival? at ha
  split at ha <;> cases ha <;> rfl

/-- What the load of a built-in module gives stands in the table. -/
theorem lookup_of_filled {focus : Focus σ H n} (hp : focus.IsPlain) {act : LoadDeed}
    {handle : Handle} {name : String} (ha : session.act? host focus = some act)
    (hf : act.filled? = some (load, handle)) (hb : textAfter? builtinPrefix load.key = some name) :
    session.loader.builtins.lookup name = some handle := by
  cases hp with
  | asking _ _ _ => cases ha
  | @given own mode rest _ _ =>
      have hact : Frame.pursuit? own (receive host own ⟨.virtual, none, false⟩ rest session).1 =
          some act := ha
      cases load_of_filled hact hf
      simp only [receive, finishBuiltin, hb, Option.getD_some] at hact
      split at hact
      · cases hact
        cases hf
      · rename_i hlookup
        cases hact
        cases hf
        exact hlookup
  | other hs =>
      obtain ⟨kind, work, stack⟩ := focus
      cases work with
      | ask request next => cases ha
      | done value =>
          cases stack with
          | nil => cases ha
          | cons frame rest =>
              cases frame using Frame.cases_load with
              | resolving order => cases (not_filled_of_arrival ha).symm.trans hf
              | loading frame own hown =>
                  have hact := (Frame.act?_of_load? hown _).symm.trans ha
                  cases load_of_filled hact hf
                  have hnone := (Bool.or_eq_false_iff.mp hs).1
                  rw [Frame.isOfBuiltin, hown, Option.any_some, hb] at hnone
                  cases hnone
              | asking next => cases ha
              | counting => cases ha
              | reloading reload => cases ha
              | renewing reload key wasCached => cases ha

end Session

end ScriptModules
