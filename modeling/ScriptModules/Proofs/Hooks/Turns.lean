import ScriptModules.Proofs.Hooks.Chain

/-!
# The turns of the hooks of a chain

What may be noted of a chain of hooks, each time it is asked (`ChainNote.Allowed`).  The newest
hook is entered first, and any other one, like the default, only as a hook before it goes on.  So
nothing is done on behalf of an invocation that has not gone on (`ChainNote.exists_wentOn`).

A load hook may go on, and await what has come of it, long after others were asked.  Each
invocation is therefore followed through its own part of the log (`ChainNote.part`): it goes on
where its part has been left (`ChainNote.Open`), whatever was noted elsewhere meanwhile.
-/

namespace ScriptModules

variable {σ H A R : Type}

namespace ChainNote

/-! ## Parts of a log -/

/-- Whether an invocation goes on. -/
def isWentOn (path : List Nat) : ChainNote A R → Bool
  | .wentOn other .. => other == path
  | _ => false

/-- How often an invocation has gone on. -/
def calls (path : List Nat) (log : List (ChainNote A R)) : Nat :=
  log.countP (isWentOn path)

/-- What is noted of an invocation and of those on its behalf. -/
def part (path : List Nat) (log : List (ChainNote A R)) : List (ChainNote A R) :=
  log.filter fun note => path.isSuffixOf note.path

/-- Notes are added, all on behalf of an invocation. -/
def Grows (path : List Nat) (log after : List (ChainNote A R)) : Prop :=
  ∃ added, after = log ++ added ∧ ∀ note ∈ added, path <:+ note.path

variable {path : List Nat} {log middle after : List (ChainNote A R)} {note : ChainNote A R}
  {index other id count : Nat}

theorem mem_part : note ∈ part path log ↔ note ∈ log ∧ path <:+ note.path := by
  unfold part
  rw [List.mem_filter, List.isSuffixOf_iff_suffix]

theorem part_append (path : List Nat) (log added : List (ChainNote A R)) :
    part path (log ++ added) = part path log ++ part path added :=
  List.filter_append ..

theorem Grows.refl (path : List Nat) (log : List (ChainNote A R)) : Grows path log log :=
  ⟨[], (List.append_nil log).symm, fun _ hnote => (nomatch hnote)⟩

theorem Grows.trans (h₁ : Grows path log middle) (h₂ : Grows path middle after) :
    Grows path log after := by
  obtain ⟨first, rfl, hfirst⟩ := h₁
  obtain ⟨last, rfl, hlast⟩ := h₂
  refine ⟨first ++ last, List.append_assoc .., fun note hnote => ?_⟩
  rcases List.mem_append.mp hnote with hmem | hmem
  · exact hfirst note hmem
  · exact hlast note hmem

theorem grows_snoc (log : List (ChainNote A R)) (note : ChainNote A R) :
    Grows note.path log (log ++ [note]) :=
  ⟨[note], rfl, fun _ hnote => List.mem_singleton.mp hnote ▸ List.suffix_refl _⟩

theorem Grows.of_cons (h : Grows (index :: path) log after) : Grows path log after := by
  obtain ⟨added, rfl, hadded⟩ := h
  exact ⟨added, rfl, fun note hnote => (List.suffix_cons index path).trans (hadded note hnote)⟩

/-- A hook goes on, and then notes are added on behalf of that. -/
theorem Grows.of_wentOn {given : A}
    (h : Grows (index :: path) (log ++ [.wentOn path index given]) after) : Grows path log after :=
  (grows_snoc log (.wentOn path index given)).trans h.of_cons

theorem calls_append (path : List Nat) (log added : List (ChainNote A R)) :
    calls path (log ++ added) = calls path log + calls path added :=
  List.countP_append

/-- What is noted of an invocation itself is in its part. -/
theorem calls_part (path : List Nat) (log : List (ChainNote A R)) :
    calls path (part path log) = calls path log := by
  unfold calls part
  rw [List.countP_filter]
  refine List.countP_congr fun note _ => ?_
  cases note with
  | entered => simp [isWentOn]
  | ended => simp [isWentOn]
  | wentOn other index given =>
      simp only [isWentOn, ChainNote.path, Bool.and_eq_true, beq_iff_eq, and_iff_left_iff_imp]
      rintro rfl
      exact List.isSuffixOf_iff_suffix.mpr (List.suffix_refl _)

theorem part_part (path : List Nat) (index : Nat) (log : List (ChainNote A R)) :
    part (index :: path) (part path log) = part (index :: path) log := by
  unfold part
  rw [List.filter_filter]
  refine List.filter_congr fun note _ => ?_
  rw [Bool.and_eq_left_iff_imp, List.isSuffixOf_iff_suffix, List.isSuffixOf_iff_suffix]
  exact (List.suffix_cons index path).trans

theorem part_eq_nil : part path log = [] ↔ ∀ note ∈ log, ¬ path <:+ note.path := by
  simp only [part, List.filter_eq_nil_iff, List.isSuffixOf_iff_suffix]

/-- What is noted elsewhere does not belong to the part. -/
theorem part_snoc_of_not (h : ¬ path <:+ note.path) : part path (log ++ [note]) = part path log := by
  have hnone : part path [note] = [] := part_eq_nil.mpr (List.forall_mem_singleton.mpr h)
  rw [part_append, hnone, List.append_nil]

theorem not_cons_suffix (index : Nat) (path : List Nat) : ¬ index :: path <:+ path :=
  fun h => Nat.not_succ_le_self _ h.length_le

/-- Whatever is noted on behalf of one request to go on, the part of another one stays. -/
theorem Grows.part_eq (h : Grows (index :: path) log after) (hother : other ≠ index) :
    part (other :: path) after = part (other :: path) log := by
  obtain ⟨added, rfl, hadded⟩ := h
  have hnone : part (other :: path) added = [] := by
    refine part_eq_nil.mpr fun note hnote hsuffix => hother ?_
    have hsame := List.suffix_of_suffix_length_le hsuffix (hadded note hnote) (by simp)
    exact (List.cons.inj (hsame.eq_of_length (by simp))).1
  rw [part_append, hnone, List.append_nil]

/-! ## What may be noted -/

/-- An invocation of a hook has been entered and has not ended. -/
def Running (path : List Nat) (id : Nat) (log : List (ChainNote A R)) : Prop :=
  (∃ given, .entered path (some id) given ∈ log) ∧
    ∀ hook given result, .ended path hook given result ∉ log

theorem Running.append {id : Nat} {added : List (ChainNote A R)} (h : Running path id log)
    (hadded : ∀ hook given result, .ended path hook given result ∉ added) :
    Running path id (log ++ added) := by
  obtain ⟨⟨given, hentered⟩, hnone⟩ := h
  refine ⟨⟨given, List.mem_append_left _ hentered⟩, fun hook given result hended => ?_⟩
  rcases List.mem_append.mp hended with hended | hended
  · exact hnone hook given result hended
  · exact hadded hook given result hended

/-- What may be noted of a chain after other notes, if its hooks have certain numbers, it is
asked with certain arguments, and results of its hooks are accepted in a certain way. -/
inductive Allowed (accept : Nat → Nat → Except ModuleError R → Except ModuleError R)
    (ids : List Nat) (arguments : A) : List (ChainNote A R) → ChainNote A R → Prop where
  /-- The newest hook is entered before anything else. -/
  | newest : Allowed accept ids arguments [] (.entered [] ids[0]? arguments)
  /-- The next one is entered as a hook goes on, with what the hook goes on with. -/
  | next {log : List (ChainNote A R)} {path : List Nat} {index : Nat} {given : A} :
      Allowed accept ids arguments (log ++ [.wentOn path index given])
        (.entered (index :: path) ids[path.length + 1]? given)
  | goesOn {log : List (ChainNote A R)} {path : List Nat} {id : Nat} {given : A}
      (h : Running path id log) :
      Allowed accept ids arguments log (.wentOn path (calls path log) given)
  /-- A hook ends; what becomes of its result depends on how often it has gone on. -/
  | ends {log : List (ChainNote A R)} {path : List Nat} {id : Nat} {given : Except ModuleError R}
      (h : Running path id log) :
      Allowed accept ids arguments log (.ended path id given (accept id (calls path log) given))

variable {accept : Nat → Nat → Except ModuleError R → Except ModuleError R} {ids : List Nat}
  {arguments : A}

/-- How often hooks have gone on says which hook it is that is entered. -/
theorem entered_hook {hook : Option Nat} {given : A}
    (h : Program.Logged (Allowed accept ids arguments) log)
    (hentered : .entered path hook given ∈ log) : hook = ids[path.length]? := by
  induction h with
  | nil => cases hentered
  | snoc h hlast ih =>
      rcases List.mem_append.mp hentered with hentered | hentered
      · exact ih hentered
      · obtain rfl := List.mem_singleton.mp hentered
        cases hlast <;> rfl

/-- Nothing runs on behalf of a request to go on that has not been made. -/
theorem exists_wentOn (h : Program.Logged (Allowed accept ids arguments) log) (hnote : note ∈ log)
    (hpath : index :: path <:+ note.path) : ∃ given, .wentOn path index given ∈ log := by
  induction h generalizing note with
  | nil => cases hnote
  | @snoc log last h hlast ih =>
      -- What the last note is allowed for has been noted before, unless it is that a hook is
      -- entered for this request.
      suffices hbefore : note ∈ log ∨ ∃ given, .wentOn path index given ∈ log by
        obtain ⟨given, hgiven⟩ := hbefore.elim (fun hnote => ih hnote hpath) id
        exact ⟨given, List.mem_append_left _ hgiven⟩
      refine (List.mem_append.mp hnote).imp_right fun hnote => ?_
      obtain rfl := List.mem_singleton.mp hnote
      cases hlast with
      | newest => exact absurd hpath (by simp [ChainNote.path])
      | @next log above number given =>
          rcases List.suffix_cons_iff.mp hpath with heq | hpath
          · obtain ⟨rfl, rfl⟩ := List.cons.inj heq
            exact ⟨given, List.mem_append_right _ (List.mem_singleton_self _)⟩
          · exact ih (List.mem_append_right _ (List.mem_singleton_self _)) hpath
      | goesOn hrunning =>
          obtain ⟨given, hentered⟩ := hrunning.1
          exact ih hentered hpath
      | ends hrunning =>
          obtain ⟨given, hentered⟩ := hrunning.1
          exact ih hentered hpath

/-! ## Invocations that are running -/

/-- An invocation is running and has gone on some times. -/
structure Open (path : List Nat) (id count : Nat) (log : List (ChainNote A R)) : Prop where
  running : Running path id log
  calls_eq : calls path log = count
  /-- Nothing has come of further requests to go on. -/
  fresh : ∀ index, count ≤ index → part (index :: path) log = []

theorem Open.of_part {other : List (ChainNote A R)} (h : Open path id count log)
    (hpart : part path other = part path log) : Open path id count other := by
  have hmem : ∀ note : ChainNote A R, note.path = path → (note ∈ other ↔ note ∈ log) := by
    rintro note rfl
    simpa [mem_part] using congrArg (note ∈ ·) hpart
  constructor
  case running =>
    obtain ⟨given, hentered⟩ := h.running.1
    exact ⟨⟨given, (hmem _ rfl).mpr hentered⟩, fun hook given result hended =>
      h.running.2 hook given result ((hmem _ rfl).mp hended)⟩
  case calls_eq => rw [← calls_part, hpart, calls_part, h.calls_eq]
  case fresh =>
    intro index hindex
    rw [← part_part, hpart, part_part, h.fresh index hindex]

/-- An invocation that is entered. -/
theorem open_entered (hpart : part path log = []) (given : A) :
    Open path id 0 (log ++ [.entered path (some id) given]) := by
  have hnone := part_eq_nil.mp hpart
  constructor
  case running =>
    refine ⟨⟨given, List.mem_append_right _ (List.mem_singleton_self _)⟩,
      fun hook given result hended => ?_⟩
    rcases List.mem_append.mp hended with hended | hended
    · exact hnone _ hended (List.suffix_refl _)
    · cases List.mem_singleton.mp hended
  case calls_eq =>
    rw [calls_append, ← calls_part, hpart]
    rfl
  case fresh =>
    intro index _
    rw [part_snoc_of_not (not_cons_suffix index path), part_eq_nil]
    exact fun note hnote hsuffix => hnone note hnote ((List.suffix_cons index path).trans hsuffix)

/-- An invocation that goes on. -/
theorem Open.wentOn (h : Open path id count log) (given : A) :
    Open path id (count + 1) (log ++ [.wentOn path count given]) := by
  constructor
  case running =>
    exact h.running.append fun hook given result hended => nomatch List.mem_singleton.mp hended
  case calls_eq =>
    rw [calls_append, h.calls_eq]
    simp [calls, isWentOn]
  case fresh =>
    intro index hindex
    rw [part_snoc_of_not (not_cons_suffix index path), h.fresh index (Nat.le_of_succ_le hindex)]

/-- An invocation stays as it is while something is done on behalf of a request to go on. -/
theorem Open.grows (h : Open path id count log) (hindex : index < count)
    (hafter : Grows (index :: path) log after) : Open path id count after := by
  have hfresh : ∀ other, count ≤ other → part (other :: path) after = [] := by
    intro other hother
    rw [hafter.part_eq (Nat.ne_of_gt (Nat.lt_of_lt_of_le hindex hother)), h.fresh other hother]
  obtain ⟨added, rfl, hadded⟩ := hafter
  refine ⟨?running, ?calls_eq, hfresh⟩
  case running =>
    exact h.running.append fun hook given result hended =>
      not_cons_suffix index path (hadded _ hended)
  case calls_eq =>
    have hnone : calls path added = 0 := by
      refine List.countP_eq_zero.mpr fun note hnote => ?_
      cases note with
      | entered => simp [isWentOn]
      | ended => simp [isWentOn]
      | wentOn other number given =>
          simp only [isWentOn, beq_iff_eq]
          rintro rfl
          exact not_cons_suffix index _ (hadded _ hnote)
    rw [calls_append, hnone, h.calls_eq, Nat.add_zero]

end ChainNote

end ScriptModules
