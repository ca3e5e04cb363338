import Mathlib.Data.List.Induction
import ScriptModules.Proofs.Loader.Accounting

/-!
# The counters of a loader at work

What the counters of a loader say at any moment of any run, with whatever tasks under way,
suspended or dropped (`Traffic.KeepsAccounts`).  The number of loads that were started is that
of the loads that succeeded, of those that failed, and of those that have not returned.

A reload reports the loads from its beginning to its end.  Its own have all returned by then;
what is out of balance is due to the calls of other tasks only (`Traffic.SpansReload`).
-/

namespace ScriptModules

variable {σ H : Type} {n : Kind}

/-! ## Reports -/

namespace Session

/-- The reload that ends at the next step of a focus, and its report. -/
def report? (host : Host σ H) (focus : Focus σ H n) (session : Session σ H) :
    Option (Reload × ReloadResult) :=
  match focus with
  | ⟨_, .done value, .cons frame rest⟩ =>
    match frame.reload?, (session.resume host frame value rest).1 with
    | some reload, ⟨.reload, .done report, _⟩ => some (reload, report)
    | _, _ => none
  | _ => none

variable {host : Host σ H} {session : Session σ H} {focus : Focus σ H n} {reload : Reload}
  {report : ReloadResult}

/-- What is reported are the loads since the reload began.  The reload stands on top of the
stack. -/
theorem of_report? (h : session.report? host focus = some (reload, report)) :
    report.loads = .between reload.before session.books.loads ∧
      (reload, focus.standing.calls) ∈ focus.standing.reloads := by
  obtain ⟨kind, work, stack⟩ := focus
  cases work with
  | ask request next => cases h
  | done value =>
      cases stack with
      | nil => cases h
      | cons frame rest =>
          cases frame with
          | reloading begun =>
              cases value with
              | error e =>
                  cases h
                  exact ⟨rfl, List.mem_cons_self⟩
              | ok resolution =>
                  simp only [report?, resume, receiveReload, Frame.reload?] at h
                  cases hb : textAfter? builtinPrefix resolution.url with
                  | some name =>
                      simp only [hb, finishReload] at h
                      cases h
                      exact ⟨rfl, List.mem_cons_self⟩
                  | none =>
                      by_cases hf : session.loader.registry.isLoading resolution.url = true
                      · unfold Registry.isLoading at hf
                        simp only [hb, if_pos hf, finishReload] at h
                        cases h
                        exact ⟨rfl, List.mem_cons_self⟩
                      · unfold Registry.isLoading at hf
                        simp only [hb, if_neg hf] at h
                        cases h
          | renewing begun key wasCached =>
              cases h
              exact ⟨rfl, List.mem_cons_self⟩
          | _ => cases h

end Session

namespace Traffic

variable {host : Host σ H} {traffic start : Traffic σ H} {tasks : List (Task σ H)} {index : Nat}
  {task : Task σ H} {count : Standing → Nat}

/-! ## Sums over tasks -/

/-- What the stacks of tasks come to. -/
def tally (count : Standing → Nat) (tasks : List (Task σ H)) : Nat :=
  (tasks.map fun task => count task.focus.standing).sum

theorem tally_append (first last : List (Task σ H)) :
    tally count (first ++ last) = tally count first + tally count last := by
  unfold tally
  rw [List.map_append, List.sum_append]

theorem tally_concat (tasks : List (Task σ H)) (task : Task σ H) :
    tally count (tasks ++ [task]) = tally count tasks + count task.focus.standing :=
  tally_append tasks [task]

theorem tally_eraseIdx (h : tasks[index]? = some task) :
    tally count tasks = tally count (tasks.eraseIdx index) + count task.focus.standing := by
  induction tasks generalizing index with
  | nil => cases h
  | cons first tasks ih =>
      have hfirst : ∀ tasks, tally count (first :: tasks) =
          count first.focus.standing + tally count tasks := by
        intro tasks
        unfold tally
        rw [List.map_cons, List.sum_cons]
      cases index with
      | zero =>
          cases h
          rw [hfirst, Nat.add_comm]
          rfl
      | succ index =>
          rw [List.getElem?_cons_succ] at h
          rw [hfirst, List.eraseIdx_cons_succ, hfirst, ih h, Nat.add_assoc]

/-- After a step, what is left to do stands in place of what there was. -/
theorem tally_proceed (h : traffic.tasks[index]? = some task) (hzero : count ⟨0, 0, []⟩ = 0)
    (result : Progress σ H n × Session σ H) :
    tally count (traffic.proceed index result).tasks =
      tally count (traffic.tasks.eraseIdx index) + count result.1.standing := by
  obtain ⟨progress, session⟩ := result
  have hlt := (List.getElem?_eq_some_iff.mp h).1
  have hset : ∀ focus : Focus σ H n, tally count (traffic.tasks.set index ⟨n, focus⟩) =
      tally count (traffic.tasks.eraseIdx index) + count focus.standing := by
    intro focus
    have hget : (traffic.tasks.set index ⟨n, focus⟩)[index]? = some ⟨n, focus⟩ := by
      rw [List.getElem?_set_self hlt]
    rw [tally_eraseIdx hget, List.eraseIdx_set_eq]
  cases progress with
  | finished value =>
      show tally count (traffic.tasks.eraseIdx index) = _ + count ⟨0, 0, []⟩
      rw [hzero, Nat.add_zero]
  | running focus => exact hset focus
  | suspended focus => exact hset focus

/-! ## Runs -/

/-- The task that is dropped at an event. -/
def dropped (traffic : Traffic σ H) : TrafficEvent σ H → List (Task σ H)
  | .dropped index => traffic.tasks[index]?.toList
  | _ => []

/-- The tasks that are dropped at events. -/
def droppedBy (host : Host σ H) (traffic : Traffic σ H) :
    List (TrafficEvent σ H) → List (Task σ H)
  | [] => []
  | event :: events => traffic.dropped event ++ (traffic.after host event).droppedBy host events

/-- The calls that have not returned when events have happened. -/
def unreturned (host : Host σ H) (start : Traffic σ H) (events : List (TrafficEvent σ H)) : Nat :=
  tally Standing.calls ((start.afterAll host events).tasks ++ start.droppedBy host events)

/-- Those among them that one task is not to blame for. -/
def unreturnedElsewhere (host : Host σ H) (start : Traffic σ H) (events : List (TrafficEvent σ H))
    (index : Nat) : Nat :=
  tally Standing.calls
    ((start.afterAll host events).tasks.eraseIdx index ++ start.droppedBy host events)

/-- The ledger of a loader in which tasks were lost. -/
def ledger (traffic : Traffic σ H) (lost : List (Task σ H)) : Ledger :=
  traffic.session.books.ledger (tally Standing.calls (traffic.tasks ++ lost))
    (tally Standing.undecided (traffic.tasks ++ lost))

/-- A task is started. -/
theorem start_posts {started : Focus σ H n × Session σ H} (lost : List (Task σ H))
    (h : ∀ others waiting, Ledger.Posts (traffic.session.books.ledger others waiting)
      (started.2.books.ledger (others + started.1.standing.calls)
        (waiting + started.1.standing.undecided))) :
    Ledger.Posts (traffic.ledger lost) ((traffic.start started).ledger lost) := by
  have htally : ∀ count, tally count ((traffic.start started).tasks ++ lost) =
      tally count (traffic.tasks ++ lost) + count started.1.standing := by
    intro count
    unfold start
    rw [tally_append, tally_concat, tally_append, Nat.add_right_comm]
  unfold ledger
  rw [htally, htally]
  exact h _ _

/-- A task does a step. -/
theorem proceed_posts (host : Host σ H) (lost : List (Task σ H))
    (h : traffic.tasks[index]? = some task) :
    Ledger.Posts (traffic.ledger lost)
      ((traffic.proceed index (traffic.session.step host task.focus)).ledger lost) := by
  have hposts := (Session.step_posts host task.focus traffic.session).ledger
  generalize traffic.session.step host task.focus = result at hposts ⊢
  have hbefore : ∀ count, tally count (traffic.tasks ++ lost) =
      tally count (traffic.tasks.eraseIdx index ++ lost) + count task.focus.standing := by
    intro count
    rw [tally_append, tally_append, tally_eraseIdx h, Nat.add_right_comm]
  have hafter : ∀ count, count ⟨0, 0, []⟩ = 0 → tally count ((traffic.proceed index result).tasks ++
      lost) = tally count (traffic.tasks.eraseIdx index ++ lost) + count result.1.standing := by
    intro count hzero
    rw [tally_append, tally_append, tally_proceed h hzero, Nat.add_right_comm]
  unfold ledger
  rw [hbefore, hbefore, hafter Standing.calls rfl, hafter Standing.undecided rfl, session_proceed]
  exact hposts _ _

/-- A task that is dropped stays in the ledger. -/
theorem ledger_dropped (host : Host σ H) (traffic : Traffic σ H) (lost : List (Task σ H))
    (index : Nat) :
    (traffic.after host (.dropped index)).ledger (lost ++ traffic.dropped (.dropped index)) =
      traffic.ledger lost := by
  rw [dropped, Traffic.after]
  cases htask : traffic.tasks[index]? with
  | none => rw [Option.toList_none, List.append_nil]
  | some task =>
      have htally : ∀ count, tally count (traffic.tasks.eraseIdx index ++ (lost ++ [task])) =
          tally count (traffic.tasks ++ lost) := by
        intro count
        rw [tally_append, tally_concat, tally_append, tally_eraseIdx htask]
        omega
      rw [Option.toList_some]
      unfold ledger
      simp only
      rw [htally, htally]

/-- What is posted at an event. -/
theorem after_posts (host : Host σ H) (traffic : Traffic σ H) (lost : List (Task σ H))
    (event : TrafficEvent σ H) :
    Ledger.Posts (traffic.ledger lost)
      ((traffic.after host event).ledger (lost ++ traffic.dropped event)) := by
  have hsame : ∀ {next : Traffic σ H}, next.session.books = traffic.session.books →
      next.tasks = traffic.tasks → Ledger.Posts (traffic.ledger lost) (next.ledger lost) := by
    intro next hbooks htasks
    unfold ledger
    rw [hbooks, htasks]
    exact .nothing _
  have hnone : ∀ {next : Traffic σ H}, Ledger.Posts (traffic.ledger lost) (next.ledger lost) →
      Ledger.Posts (traffic.ledger lost) (next.ledger (lost ++ [])) := by
    intro next h
    rw [List.append_nil]
    exact h
  cases event with
  | imported specifier base =>
      exact hnone (start_posts lost
        (Session.startLoad_posts host .suspendable specifier base .nil traffic.session).ledger)
  | required specifier base =>
      exact hnone (start_posts lost
        (Session.startLoad_posts host .immediate specifier base .nil traffic.session).ledger)
  | resolved specifier base =>
      exact hnone (start_posts lost fun _ _ => .nothing _)
  | reloaded specifier base =>
      exact hnone (start_posts lost fun _ _ => .nothing _)
  | operated operation =>
      exact hnone (hsame (Session.books_perform traffic.session operation) rfl)
  | changed surroundings =>
      exact hnone (hsame rfl rfl)
  | advanced index =>
      refine hnone ?_
      unfold Traffic.after
      simp only
      split
      · rename_i task htask
        exact proceed_posts host lost htask
      · exact hsame rfl rfl
  | dropped index =>
      rw [ledger_dropped]
      exact .nothing _

/-- A balanced ledger stays balanced, and its counters only grow. -/
theorem ledger_afterAll (host : Host σ H) (events : List (TrafficEvent σ H))
    {lost : List (Task σ H)} (h : (traffic.ledger lost).Balanced) :
    ((traffic.afterAll host events).ledger (lost ++ traffic.droppedBy host events)).Balanced ∧
      traffic.session.books.Grows (traffic.afterAll host events).session.books := by
  induction events generalizing traffic lost with
  | nil =>
      rw [droppedBy, List.append_nil]
      exact ⟨h, .refl _⟩
  | cons event events ih =>
      have hposts := after_posts host traffic lost event
      obtain ⟨hbalanced, hgrows⟩ := ih (hposts.balanced h)
      rw [droppedBy, ← List.append_assoc]
      exact ⟨hbalanced, hposts.grows.trans hgrows⟩

/-! ## Reloads under way -/

/-- The reloads on the stacks of all tasks, each with the number of calls below it. -/
def reloads (traffic : Traffic σ H) : List (Reload × Nat) :=
  traffic.tasks.flatMap (·.focus.standing.reloads)

/-- The reload that begins at an event, and the task it belongs to. -/
def reload? (traffic : Traffic σ H) : TrafficEvent σ H → Option (Nat × Reload)
  | .reloaded specifier base =>
    some (traffic.tasks.length, traffic.session.reloadOf specifier base)
  | .advanced index =>
    match traffic.tasks[index]? with
    | some task => (traffic.session.reload? task.focus).map (index, ·)
    | none => none
  | _ => none

/-- The reload that ends when one of the tasks does its next step, and its report. -/
def report? (host : Host σ H) (traffic : Traffic σ H) (index : Nat) :
    Option (Reload × ReloadResult) :=
  match traffic.tasks[index]? with
  | some task => traffic.session.report? host task.focus
  | none => none

/-- A reload reports the loads since it began. -/
theorem before_of_reload? {event : TrafficEvent σ H} {reload : Reload}
    (h : traffic.reload? event = some (index, reload)) :
    reload.before = traffic.session.books.loads := by
  cases event with
  | reloaded specifier base =>
      cases h
      rfl
  | advanced place =>
      unfold reload? at h
      simp only at h
      split at h
      · obtain ⟨begun, hbegun, heq⟩ := Option.map_eq_some_iff.mp h
        cases heq
        unfold Session.reload? at hbegun
        split at hbegun
        · cases hbegun
          rfl
        · cases hbegun
      · cases h
  | _ => cases h

/-- A reload begins in a task, with a number of calls below it. -/
def Begins (traffic : Traffic σ H) (event : TrafficEvent σ H) (index : Nat)
    (entry : Reload × Nat) : Prop :=
  traffic.reload? event = some (index, entry.1) ∧
    tally Standing.calls traffic.tasks =
      tally Standing.calls (traffic.tasks.eraseIdx index) + entry.2

variable {entry : Reload × Nat}

theorem mem_reloads_start {started : Focus σ H n × Session σ H}
    (h : entry ∈ (traffic.start started).reloads) :
    entry ∈ traffic.reloads ∨ entry ∈ started.1.standing.reloads := by
  unfold reloads start at h
  rw [List.flatMap_append, List.mem_append] at h
  refine h.imp_right fun h => ?_
  rw [List.flatMap_cons, List.flatMap_nil, List.append_nil] at h
  exact h

theorem mem_reloads_proceed {result : Progress σ H n × Session σ H}
    (h : entry ∈ (traffic.proceed index result).reloads) :
    entry ∈ traffic.reloads ∨ entry ∈ result.1.standing.reloads := by
  obtain ⟨progress, session⟩ := result
  have hset : ∀ focus : Focus σ H n,
      entry ∈ (traffic.tasks.set index ⟨n, focus⟩).flatMap (·.focus.standing.reloads) →
        entry ∈ traffic.reloads ∨ entry ∈ focus.standing.reloads := by
    intro focus h
    obtain ⟨task, htask, hentry⟩ := List.mem_flatMap.mp h
    rcases List.mem_or_eq_of_mem_set htask with hold | rfl
    · exact Or.inl (List.mem_flatMap.mpr ⟨task, hold, hentry⟩)
    · exact Or.inr hentry
  cases progress with
  | finished value =>
      obtain ⟨task, htask, hentry⟩ := List.mem_flatMap.mp h
      exact Or.inl (List.mem_flatMap.mpr ⟨task, List.mem_of_mem_eraseIdx htask, hentry⟩)
  | running focus => exact hset focus h
  | suspended focus => exact hset focus h

/-- Every reload under way was so before, or has just begun. -/
theorem mem_reloads_after (host : Host σ H) (event : TrafficEvent σ H)
    (h : entry ∈ (traffic.after host event).reloads) :
    entry ∈ traffic.reloads ∨ ∃ index, traffic.Begins event index entry := by
  have hstarted : ∀ {n : Kind} {started : Focus σ H n × Session σ H},
      started.1.standing.reloads = [] → entry ∈ (traffic.start started).reloads →
        entry ∈ traffic.reloads ∨ ∃ index, traffic.Begins event index entry := by
    intro n started hnone hmem
    refine (mem_reloads_start hmem).imp_right fun hmem => ?_
    rw [hnone] at hmem
    cases hmem
  cases event with
  | imported specifier base => exact hstarted rfl h
  | required specifier base => exact hstarted rfl h
  | resolved specifier base => exact hstarted rfl h
  | operated operation => exact Or.inl h
  | changed surroundings => exact Or.inl h
  | reloaded specifier base =>
      refine (mem_reloads_start h).imp_right fun hmem => ?_
      rw [List.mem_singleton.mp hmem]
      refine ⟨traffic.tasks.length, rfl, ?_⟩
      rw [List.eraseIdx_of_length_le (Nat.le_refl _)]
      rfl
  | advanced index =>
      unfold Traffic.after at h
      simp only at h
      split at h
      · rename_i task htask
        have hposts := Session.step_posts host task.focus traffic.session
        rcases mem_reloads_proceed h with hold | hnew
        · exact Or.inl hold
        · rcases hposts.reloads entry hnew with hold | ⟨hbegun, hbelow⟩
          · exact Or.inl (List.mem_flatMap.mpr ⟨task, List.mem_of_getElem? htask, hold⟩)
          · refine Or.inr ⟨index, ?_, hbelow ▸ tally_eraseIdx htask⟩
            rw [reload?, htask]
            simp only [hbegun, Option.map_some]
      · exact Or.inl h
  | dropped index =>
      unfold Traffic.after at h
      simp only at h
      split at h
      · obtain ⟨task, htask, hentry⟩ := List.mem_flatMap.mp h
        exact Or.inl (List.mem_flatMap.mpr ⟨task, List.mem_of_mem_eraseIdx htask, hentry⟩)
      · exact Or.inl h

/-- Every reload under way has begun at some time. -/
theorem begins_of_mem_reloads (host : Host σ H) (start : Traffic σ H)
    (hnone : start.reloads = []) (events : List (TrafficEvent σ H))
    (h : entry ∈ (start.afterAll host events).reloads) :
    ∃ earlier first meanwhile index, events = earlier ++ first :: meanwhile ∧
      (start.afterAll host earlier).Begins first index entry := by
  induction events using List.reverseRecOn with
  | nil =>
      rw [afterAll, List.foldl_nil, hnone] at h
      cases h
  | append_singleton events event ih =>
      rw [afterAll, List.foldl_append] at h
      rcases mem_reloads_after host event h with hold | ⟨index, hbegins⟩
      · obtain ⟨earlier, first, meanwhile, index, rfl, hbegins⟩ := ih hold
        exact ⟨earlier, first, meanwhile ++ [event], index, by simp, hbegins⟩
      · exact ⟨events, event, [], index, rfl, hbegins⟩

/-! ## Accounts -/

/-- A reload that lasts from one moment of a run to another one, where its report is made. -/
structure SpansReload (host : Host σ H) (start : Traffic σ H)
    (earlier : List (TrafficEvent σ H)) (place : Nat) (events : List (TrafficEvent σ H))
    (index : Nat) (reload : Reload) (report : ReloadResult) : Prop where
  /-- It begins when the earlier events have happened. -/
  begins : ∃ first meanwhile, events = earlier ++ first :: meanwhile ∧
    (start.afterAll host earlier).reload? first = some (place, reload)
  /-- The loads it reports balance but for the calls of others. -/
  loads : report.loads.attempted + start.unreturnedElsewhere host earlier place =
    report.loads.successful + report.loads.failed + start.unreturnedElsewhere host events index
  /-- They balance exactly if others have left as many calls as there were, as they have if
  nothing is suspended meanwhile. -/
  balanced : report.loads.attempted = report.loads.successful + report.loads.failed ↔
    start.unreturnedElsewhere host events index = start.unreturnedElsewhere host earlier place

/-- What the counters of a loader tell, whatever happens from its start. -/
structure KeepsAccounts (host : Host σ H) (start : Traffic σ H) : Prop where
  /-- Loads that were started have succeeded, have failed or have not returned. -/
  loads : ∀ events, (start.afterAll host events).session.books.loads.total =
    (start.afterAll host events).session.books.loads.success +
      (start.afterAll host events).session.books.loads.failed + start.unreturned host events
  /-- There is a miss for every record that was ever made. -/
  misses : ∀ events, (start.afterAll host events).session.books.misses =
    (start.afterAll host events).session.books.made
  asked : ∀ events, (start.afterAll host events).session.books.hits +
    (start.afterAll host events).session.books.misses ≤
      (start.afterAll host events).session.books.loads.total
  /-- Counters only grow. -/
  grows : ∀ events more, (start.afterAll host events).session.books.Grows
    (start.afterAll host (events ++ more)).session.books
  /-- Every reload that makes its report has begun, and balances but for others. -/
  reload : ∀ events index reload report,
    (start.afterAll host events).report? host index = some (reload, report) →
      ∃ earlier place, start.SpansReload host earlier place events index reload report

/-- Nothing is counted yet, and nothing is under way. -/
theorem balanced_opened {config : Config} {before : FileSystem} {loader : Loader H}
    {surroundings : Surroundings σ}
    (h : Loader.openWith config before = (.ok loader, surroundings.files)) :
    ((opened surroundings loader).ledger []).Balanced := by
  have hbooks : (opened surroundings loader).session.books = ⟨{}, 0, 0, 0⟩ := by
    show loader.registry.books = _
    rw [(openWith_ok h).1]
    rfl
  unfold ledger
  rw [hbooks]
  exact ⟨rfl, rfl, Nat.le_refl _⟩

/-- What is reported when a run has led there with balanced accounts. -/
theorem spansReload (host : Host σ H) (hstart : (start.ledger []).Balanced)
    (hnone : start.reloads = []) (events : List (TrafficEvent σ H)) {reload : Reload}
    {report : ReloadResult}
    (h : (start.afterAll host events).report? host index = some (reload, report)) :
    ∃ earlier place, start.SpansReload host earlier place events index reload report := by
  obtain ⟨task, htask, hreport⟩ : ∃ task, (start.afterAll host events).tasks[index]? = some task ∧
      (start.afterAll host events).session.report? host task.focus = some (reload, report) := by
    unfold report? at h
    split at h
    · exact ⟨_, ‹_›, h⟩
    · cases h
  obtain ⟨hdelta, hstands⟩ := Session.of_report? hreport
  obtain ⟨earlier, first, meanwhile, place, rfl, hbegun, hbelow⟩ :=
    begins_of_mem_reloads host start hnone events
      (List.mem_flatMap.mpr ⟨task, List.mem_of_getElem? htask, hstands⟩)
  have hsplit : start.afterAll host (earlier ++ first :: meanwhile) =
      (start.afterAll host earlier).afterAll host (first :: meanwhile) :=
    afterAll_append host start earlier _
  have hearlier := (ledger_afterAll host earlier hstart).1
  have hgrows := (ledger_afterAll host (first :: meanwhile) hearlier).2
  rw [← hsplit] at hgrows
  have hthen : (start.afterAll host earlier).session.books.loads.total =
      (start.afterAll host earlier).session.books.loads.success +
        (start.afterAll host earlier).session.books.loads.failed +
          start.unreturned host earlier := hearlier.loads
  have hnow : (start.afterAll host (earlier ++ first :: meanwhile)).session.books.loads.total =
      (start.afterAll host (earlier ++ first :: meanwhile)).session.books.loads.success +
        (start.afterAll host (earlier ++ first :: meanwhile)).session.books.loads.failed +
          start.unreturned host (earlier ++ first :: meanwhile) :=
    (ledger_afterAll host _ hstart).1.loads
  -- The same calls stand below the reload when it begins and when it ends.
  have hthere : start.unreturned host earlier =
      start.unreturnedElsewhere host earlier place + task.focus.standing.calls := by
    unfold unreturned unreturnedElsewhere
    rw [tally_append, tally_append, hbelow]
    omega
  have hhere : start.unreturned host (earlier ++ first :: meanwhile) =
      start.unreturnedElsewhere host (earlier ++ first :: meanwhile) index +
        task.focus.standing.calls := by
    unfold unreturned unreturnedElsewhere
    rw [tally_append, tally_append, tally_eraseIdx htask]
    omega
  have hbefore := before_of_reload? hbegun
  have hloads : report.loads.attempted + start.unreturnedElsewhere host earlier place =
      report.loads.successful + report.loads.failed +
        start.unreturnedElsewhere host (earlier ++ first :: meanwhile) index := by
    obtain ⟨htotal, hsuccess, hfailed, -, -⟩ := hgrows
    rw [hdelta, hbefore]
    simp only [ReloadDelta.between]
    omega
  exact ⟨earlier, place, ⟨first, meanwhile, rfl, hbegun⟩, hloads, by omega⟩

/-- An import is suspended, and another module is reloaded meanwhile.  As its contents are
deferred, too, it fails. -/
def reloadedMeanwhile : List (TrafficEvent Unit Unit) :=
  [.operated (.register (some { resolve := some (), load := some () })),
    .imported "m" (.ofString "/"), .advanced 0, .advanced 0, .advanced 0,
    .reloaded "n" (.ofString "/"), .advanced 1, .advanced 1, .advanced 1, .advanced 1]

end Traffic

end ScriptModules
