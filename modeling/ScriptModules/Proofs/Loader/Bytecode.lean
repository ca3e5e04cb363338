import ScriptModules.Proofs.Cache.Recall
import ScriptModules.Proofs.Loader.Renewal

/-!
# Where the bytecode of scripts comes from

The bytecode of a script is given by the compiler, or by an entry of the compile cache.  All
through a run the files hold no entry but those that were there when it began and those whose
sources the compiler was started on since (`Account.Writes`).  So a script that is loaded in the
run is one the compiler was started on in this run, or its entry checked out when the run began
(`Session.covers_leads`).

Sources are told apart by their fingerprints here, as the cache does.
-/

namespace ScriptModules

open FileSystem (Adds)
open Registry (Claim InFlight Drops Moves)

variable {σ H : Type} {k m n : Kind}

/-! ## Accounts of a run -/

/-- An account of a run: how things are when it begins, and what happens in it. -/
structure Account (σ H : Type) where
  host : Host σ H
  cache : Cache
  files : FileSystem
  /-- How many records have been made. -/
  made : Nat
  /-- The sources that loads are given. -/
  given : Load → Bytes → Prop
  /-- The sources the compiler is started on. -/
  compiled : Bytes → CompileOptions → Prop

namespace Account

variable {account : Account σ H}

/-- The fingerprint of a source. -/
def fingerprintOf (account : Account σ H) (source : Bytes) (options : CompileOptions) :
    Fingerprint :=
  account.cache.fingerprintOf source account.host.engine options

/-- There is an entry when the run begins, and it checks out. -/
def Finds (account : Account σ H) (fingerprint : Fingerprint) : Prop :=
  (account.cache.lookup account.files fingerprint account.host.engine).1.isSome = true

/-- The compiler is started on a source with a certain fingerprint. -/
def Compiles (account : Account σ H) (fingerprint : Fingerprint) : Prop :=
  ∃ source options, account.compiled source options ∧
    account.fingerprintOf source options = fingerprint

/-- What is written to files: indices, and entries of sources the compiler is started on. -/
def Writes (account : Account σ H) (content : Bytes) : Prop :=
  Cache.IsIndexText content ∨ ∃ fingerprint bytecode, account.Compiles fingerprint ∧
    content = Cache.Entry.encode sha256 fingerprint account.host.engine bytecode

/-- A load is given a source with a certain fingerprint, and where its bytecode comes from is
known. -/
def Knows (account : Account σ H) (load : Load) (fingerprint : Option Fingerprint) : Prop :=
  ∃ source options, account.given load source ∧
    fingerprint = some (account.fingerprintOf source options) ∧
      (account.Compiles (account.fingerprintOf source options) ∨
        account.Finds (account.fingerprintOf source options))

/-- A script whose body has begun was loaded by a load of which this is known. -/
def Explains (account : Account σ H) (id : ModuleId) (record : ModuleRecord) : Prop :=
  record.format = .script → record.state = .executing ∨ record.state = .complete →
    ∃ load : Load, load.id = id ∧ load.key = record.key ∧ account.Knows load record.fingerprint

/-- The source that is being compiled was given to its load, and the compiler was started on
it. -/
def Follows (account : Account σ H) : Frame σ H k m → Prop
  | .compiling load source fingerprint => account.given load source ∧
      ∃ options, account.compiled source options ∧
        fingerprint = some (account.fingerprintOf source options)
  | _ => True

/-- This is so of all frames of a stack. -/
def FollowsAll (account : Account σ H) : {k n : Kind} → Stack σ H k n → Prop
  | _, _, .nil => True
  | _, _, .cons frame rest => account.Follows frame ∧ account.FollowsAll rest

/-- The account holds of a loader in the course of the run. -/
structure Covers (account : Account σ H) (session : Session σ H) : Prop where
  grounded : account.files.Grounded
  files : Adds account.Writes account.files session.files
  cache : ∃ cache, session.loader.cache = some cache ∧ cache.settings = account.cache.settings
  records : ∀ {id record}, session.loader.registry.get? id = some record →
    account.made ≤ id.index → account.Explains id record

/-- The account holds of what a step comes to.  Where the compiler is started, it does if this
is part of the account. -/
inductive Holds (account : Account σ H) : Focus σ H n × Session σ H → Prop where
  | goesOn {result : Focus σ H n × Session σ H} (hs : account.FollowsAll result.1.stack)
      (hc : account.Covers result.2) : Holds account result
  | compiles {load : Load} {source : Bytes} {options : CompileOptions}
      {stack : Stack σ H .module n} {after : Session σ H} (hg : account.given load source)
      (hs : account.FollowsAll stack) (hc : account.Covers after) :
      Holds account (⟨.bytecode, .ofProgram (account.host.compile source options),
        .cons (.compiling load source (some (account.fingerprintOf source options))) stack⟩, after)

theorem explains_of_format {id : ModuleId} {record : ModuleRecord}
    (h : record.format ≠ .script) : account.Explains id record :=
  fun hscript => absurd hscript h

theorem explains_of_state {id : ModuleId} {record : ModuleRecord}
    (h : ¬ (record.state = .executing ∨ record.state = .complete)) : account.Explains id record :=
  fun _ hbegun => absurd hbegun h

/-! ## The parts of a session -/

variable {session after : Session σ H} {cache : Cache} {fingerprint : Fingerprint}

/-- The account does not speak of anything else. -/
theorem Covers.of_eq (h : account.Covers session) (hfiles : after.files = session.files)
    (hcache : after.loader.cache = session.loader.cache)
    (hrecords : after.loader.registry.records = session.loader.registry.records) :
    account.Covers after := by
  refine ⟨h.grounded, hfiles ▸ h.files, hcache ▸ h.cache, fun {id record} hr hnew => ?_⟩
  rw [Registry.get?_congr hrecords] at hr
  exact h.records hr hnew

theorem Covers.drops (h : account.Covers session) {registry : Registry}
    (hd : Drops session.loader.registry registry) :
    account.Covers (session.withRegistry fun _ => registry) :=
  ⟨h.grounded, h.files, h.cache, fun hr hnew => h.records (hd.rest hr) hnew⟩

theorem Covers.moves (h : account.Covers session) {registry : Registry} {id : ModuleId}
    {changed : ModuleRecord} (hm : Moves session.loader.registry registry id changed)
    (hx : account.made ≤ id.index → account.Explains id changed) :
    account.Covers (session.withRegistry fun _ => registry) := by
  refine ⟨h.grounded, h.files, h.cache, fun {other found} hr hnew => ?_⟩
  by_cases heq : other = id
  · subst heq
    cases hr.symm.trans hm.own
    exact hx hnew
  · exact h.records (hm.rest heq hr) hnew

theorem Covers.acts (h : account.Covers session) {files : FileSystem}
    (hadds : Adds account.Writes session.files files)
    (hs : cache.settings = account.cache.settings) :
    account.Covers { session with files, loader.cache := some cache } :=
  ⟨h.grounded, h.files.trans hadds, ⟨cache, rfl, hs⟩, h.records⟩

/-- An entry that checks out now did so when the run began, or its source has been compiled. -/
theorem Covers.compiles_or_finds (h : account.Covers session)
    (hs : cache.settings = account.cache.settings) {bytecode : Bytes}
    (hl : (cache.lookup session.files fingerprint account.host.engine).1 = some bytecode) :
    account.Compiles fingerprint ∨ account.Finds fingerprint := by
  obtain ⟨file, hread, hdecode⟩ := Cache.lookup_eq_some_iff.mp hl
  rcases (h.files h.grounded).2 _ file hread with hold | hindex | ⟨other, stored, hcompiled, rfl⟩
  · right
    have hpath : account.cache.entryPath fingerprint = cache.entryPath fingerprint := by
      have hdirectory : cache.directory = account.cache.directory := congrArg Prod.fst hs
      rw [Cache.entryPath, Cache.entryPath, hdirectory]
    have hfound : (account.cache.lookup account.files fingerprint account.host.engine).1 =
        some bytecode := Cache.lookup_eq_some_iff.mpr ⟨file, hpath ▸ hold, hdecode⟩
    rw [Finds, hfound]
    rfl
  · exact absurd hdecode (hindex.decode_ne_ok fingerprint account.host.engine bytecode)
  · left
    obtain ⟨rfl, -⟩ := Cache.Entry.eq_of_decode_encode hdecode
    exact hcompiled

theorem fingerprintOf_of_settings (hs : cache.settings = account.cache.settings) (source : Bytes)
    (options : CompileOptions) :
    cache.fingerprintOf source account.host.engine options =
      account.fingerprintOf source options := by
  have hroot : cache.portableRoot = account.cache.portableRoot :=
    congrArg (fun settings => settings.2.1) hs
  rw [fingerprintOf, Cache.fingerprintOf, Cache.fingerprintOf, hroot]

end Account

namespace Session

open Account (Covers FollowsAll Follows)

variable {account : Account σ H} {session : Session σ H} {load : Load} {record : ModuleRecord}
  {stack : Stack σ H .module n}

/-! ## Loads -/

theorem failLoad_holds (hc : account.Covers session) (hs : account.FollowsAll stack)
    (hr : session.loader.registry.get? load.id = some record)
    (ht : record.state.isTerminal = false) (e : ModuleError) :
    account.Holds (failLoad load e stack session) := by
  refine .goesOn hs (hc.moves (Registry.moves_fail hr ht e.message) fun _ => ?_)
  exact Account.explains_of_state (by simp)

/-- The body of a script begins on bytecode of which it is known where it comes from. -/
theorem startBody_holds (hc : account.Covers session) (hs : account.FollowsAll stack)
    (hr : session.loader.registry.get? load.id = some record) (hk : record.key = load.key)
    (hn : record.state.canAdvance .executing = true) {fingerprint : Option Fingerprint}
    (hx : record.format = .script → account.Knows load fingerprint) (bytecode : Bytes)
    (sourceLength : Nat) :
    account.Holds (startBody account.host load bytecode fingerprint sourceLength stack session) := by
  have hcompiled := Registry.sets_modify hr fun record => { record with fingerprint, sourceLength }
  obtain ⟨handle, -, -, hsets⟩ :=
    Registry.sets_beginExecution session.exports hcompiled.get_self hn
  have hmoves := (hcompiled.trans hsets).moves
    ((Registry.size_beginExecution ..).trans (Registry.size_modify ..))
  have hcovers := hc.moves hmoves fun _ hscript _ => ⟨load, rfl, hk.symm, hx hscript⟩
  exact .goesOn ⟨trivial, hs⟩ (hcovers.of_eq rfl rfl rfl)

theorem startCompiler_holds (hc : account.Covers session) (hs : account.FollowsAll stack)
    (hr : session.loader.registry.get? load.id = some record) (hk : record.key = load.key)
    (hn : record.state.canAdvance .executing = true) {source : Bytes}
    (hg : account.given load source) :
    account.Holds (startCompiler account.host load source stack session) := by
  obtain ⟨cache, hcache, hsettings⟩ := hc.cache
  simp only [startCompiler, hcache]
  generalize (if (Path.ofString load.key).isAbsolute then
    session.loader.resolver.kindOf session.files (Path.ofString load.key)
    else (.commonJs, session.loader.resolver)) = pair
  rw [Account.fingerprintOf_of_settings hsettings]
  generalize CompileOptions.ofKind pair.1 = options
  have hlater := hc.acts
    (Cache.adds_lookup cache session.files (account.fingerprintOf source options)
      account.host.engine)
    ((Cache.settings_lookup cache session.files (account.fingerprintOf source options)
      account.host.engine).trans hsettings)
  generalize hlookup : cache.lookup session.files (account.fingerprintOf source options)
    account.host.engine = found at hlater ⊢
  obtain ⟨found, after, files⟩ := found
  cases found with
  | some bytecode =>
      have hfound : (cache.lookup session.files (account.fingerprintOf source options)
          account.host.engine).1 = some bytecode := by rw [hlookup]
      refine startBody_holds ?_ hs ?_ hk hn (fun _ => ?_) bytecode _
      · exact hlater.of_eq rfl rfl rfl
      · exact hr
      · exact ⟨source, options, hg, rfl, hc.compiles_or_finds hsettings hfound⟩
  | none => exact .compiles hg hs (hlater.of_eq rfl rfl rfl)

theorem finishBuiltin_holds (hc : account.Covers session) (hs : account.FollowsAll stack)
    (hr : session.loader.registry.get? load.id = some record)
    (hn : record.state.canAdvance .executing = true) (hf : record.format ≠ .script) :
    account.Holds (finishBuiltin load stack session) := by
  simp only [finishBuiltin]
  split
  · exact failLoad_holds hc hs hr (ModuleState.isTerminal_of_canAdvance hn) _
  · rename_i handle _
    have hgiven : Moves session.loader.registry (session.loader.registry.setExports load.id handle)
        load.id { record with exports := some handle } := Registry.moves_modify hr _
    obtain ⟨begun, -, -, hsets⟩ := Registry.sets_beginExecution session.exports hgiven.own hn
    have hbegun := hgiven.trans (hsets.moves (Registry.size_beginExecution ..))
    have hcomplete := hbegun.trans (Registry.moves_complete hbegun.own rfl)
    have hcovers := hc.moves hcomplete fun _ => Account.explains_of_format hf
    exact .goesOn hs (hcovers.of_eq rfl rfl rfl)

/-- Contents bring a record to be compiled; the account has to tell of the source of a
script. -/
theorem receive_holds (hc : account.Covers session) (hs : account.FollowsAll stack)
    (hr : session.loader.registry.get? load.id = some record) (hk : record.key = load.key)
    (hstate : record.state = .resolving) {output : LoadOutput}
    (hg : ∀ source, output.format = .script → output.source = some source →
      account.given load source) :
    account.Holds (receive account.host load output stack session) := by
  have hadvance : record.state.canAdvance .compiling = true := by rw [hstate]; rfl
  have hformat := Registry.sets_modify hr fun record => { record with format := output.format }
  have hmoves := (hformat.trans (Registry.sets_advance hformat.get_self hadvance).2).moves
    ((Registry.size_advance ..).trans (Registry.size_modify ..))
  have hcovers := hc.moves hmoves fun _ => Account.explains_of_state (by simp)
  have hown := hmoves.own
  simp only [receive]
  split
  · rename_i hvirtual
    exact finishBuiltin_holds hcovers hs hown rfl (by simp [hvirtual])
  · exact failLoad_holds hcovers hs hown rfl _
  · rename_i hbinary _
    exact startBody_holds hcovers hs hown hk rfl (fun hscript => by simp [hbinary] at hscript) _ _
  · rename_i source hscript hsource
    exact startCompiler_holds hcovers hs hown hk rfl (hg source hscript hsource)

theorem receiveResult_holds (hc : account.Covers session) (hs : account.FollowsAll stack)
    (hr : session.loader.registry.get? load.id = some record) (hk : record.key = load.key)
    (hstate : record.state = .resolving) {answer : Except ModuleError LoadOutput}
    (hg : ∀ output source, answer = .ok output → output.format = .script →
      output.source = some source → account.given load source) :
    account.Holds (receiveResult account.host load answer stack session) := by
  cases answer with
  | ok output => exact receive_holds hc hs hr hk hstate fun source => hg output source rfl
  | error e => exact failLoad_holds hc hs hr (by rw [hstate]; rfl) e

theorem receiveReply_holds (hc : account.Covers session) (hs : account.FollowsAll stack)
    (hr : session.loader.registry.get? load.id = some record) (hk : record.key = load.key)
    (hstate : record.state = .resolving) (mode : LoadMode) {reply : LoadReply σ H}
    (hg : ∀ output source, reply = .ready (.ok output) → output.format = .script →
      output.source = some source → account.given load source) :
    account.Holds (receiveReply account.host load mode reply stack session) := by
  simp only [receiveReply]
  split
  · rename_i answer _
    exact receiveResult_holds hc hs hr hk hstate fun output source heq =>
      hg output source (congrArg LoadReply.ready heq)
  · exact .goesOn ⟨trivial, hs⟩ hc
  · exact failLoad_holds hc hs hr (by rw [hstate]; rfl) _

theorem receiveBytecode_holds (hc : account.Covers session) (hs : account.FollowsAll stack)
    (hr : session.loader.registry.get? load.id = some record) (hk : record.key = load.key)
    (hn : record.state.canAdvance .executing = true) {source : Bytes}
    {fingerprint : Option Fingerprint}
    (hf : account.given load source ∧ ∃ options, account.compiled source options ∧
      fingerprint = some (account.fingerprintOf source options))
    (answer : Except CompileError Bytes) :
    account.Holds (receiveBytecode account.host load source fingerprint answer stack session) := by
  obtain ⟨hg, options, hcompiled, rfl⟩ := hf
  have hcompiles : account.Compiles (account.fingerprintOf source options) :=
    ⟨source, options, hcompiled, rfl⟩
  cases answer with
  | error e =>
      show account.Holds (failLoad load (.compile load.key e) stack session)
      exact failLoad_holds hc hs hr (ModuleState.isTerminal_of_canAdvance hn) _
  | ok bytecode =>
      obtain ⟨cache, hcache, hsettings⟩ := hc.cache
      unfold receiveBytecode
      simp only [hcache]
      have hwrites := (Cache.adds_store cache session.files (account.fingerprintOf source options)
        account.host.engine bytecode).mono fun content heq =>
          (Or.inr ⟨_, bytecode, hcompiles, heq⟩ : account.Writes content)
      have hlater := hc.acts hwrites ((Cache.settings_store cache session.files
        (account.fingerprintOf source options) account.host.engine bytecode).trans hsettings)
      generalize cache.store session.files (account.fingerprintOf source options)
        account.host.engine bytecode = stored at hlater ⊢
      refine startBody_holds ?_ hs ?_ hk hn (fun _ => ?_) bytecode _
      · exact hlater
      · exact hr
      · exact ⟨source, options, hg, rfl, Or.inl hcompiles⟩

theorem receiveExecution_holds (hc : account.Covers session) (hs : account.FollowsAll stack)
    (hr : session.loader.registry.get? load.id = some record) (hstate : record.state = .executing)
    (handle : Handle) (answer : Except Failure Unit) (dependencies : List String) :
    account.Holds (receiveExecution load handle answer dependencies stack session) := by
  have ht : record.state.isTerminal = false := by rw [hstate]; rfl
  simp only [receiveExecution]
  split
  · refine failLoad_holds ?_ hs ?_ ht _
    · exact hc.of_eq rfl rfl rfl
    · exact hr
  · have hnoted := Registry.moves_modify hr fun record => { record with dependencies }
    have hcomplete := hnoted.trans (Registry.moves_complete hnoted.own ht)
    have hexplains : account.made ≤ load.id.index → account.Explains load.id
        { record with dependencies, state := .complete } := by
      intro hnew hscript _
      have hbefore := hc.records hr hnew
      exact hbefore hscript (Or.inl hstate)
    have hcovers := hc.moves hcomplete hexplains
    exact .goesOn hs (hcovers.of_eq rfl rfl rfl)

theorem Considers.covers {key : String} {answer : Except ModuleError (Option Handle)}
    {after : Session σ H} (h : Considers key session (answer, after))
    (hc : account.Covers session) : account.Covers after := by
  cases h with
  | served _ _ _ _ _ => exact hc.of_eq rfl rfl rfl
  | _ => exact hc

/-- The record of a load that begins has still to be explained. -/
theorem covers_beginLoad (hc : account.Covers session) (key : String)
    (format : Option ModuleFormat) (base : Path) :
    account.Covers (session.beginLoad key format base).2 := by
  have hinserted := Registry.get?_insert session.loader.registry.countMiss key
    (format.getD .script)
  obtain ⟨-, hsets⟩ := Registry.sets_advance ((hinserted _).trans (if_pos rfl))
    (rfl : ModuleState.unresolved.canAdvance .resolving = true)
  have hcounted : Drops session.loader.registry session.loader.registry.countMiss := .of_eq rfl
  have hdrops := hcounted.trans (Registry.drops_invalidate _ key)
  refine ⟨hc.grounded, hc.files, hc.cache, fun {other found} hr hnew => ?_⟩
  replace hr := (hsets.get other).symm.trans hr
  split at hr
  · cases hr
    exact Account.explains_of_state (by simp)
  · rename_i hne
    rw [hinserted, if_neg hne] at hr
    exact hc.records (hdrops.rest hr) hnew

theorem Admits.holds {order : LoadOrder} {answer : Except ModuleError Resolution}
    {result : Focus σ H n × Session σ H}
    (h : Admits account.host order stack session answer result) (hc : account.Covers session)
    (hs : account.FollowsAll stack) : account.Holds result := by
  cases h with
  | unresolved => exact .goesOn hs hc
  | refused _ => exact .goesOn hs hc
  | served hserved => exact .goesOn hs ((considers_of_eq hserved).covers hc)
  | @begins resolution _ =>
      have hbegun := covers_beginLoad hc resolution.url resolution.format order.base
      exact .goesOn ⟨trivial, hs⟩ (hbegun.of_eq rfl rfl rfl)

/-! ## Reloads and operations -/

theorem covers_forget (hc : account.Covers session) (key : String) :
    account.Covers (session.forget key).2 := by
  have hdropped := hc.drops (Registry.drops_invalidate session.loader.registry key)
  simp only [forget]
  split
  · rename_i fingerprint cache _ hcache
    obtain ⟨now, hnow, hsettings⟩ := hc.cache
    cases hcache.symm.trans hnow
    have hremoved := hdropped.acts (Cache.adds_remove cache session.files fingerprint)
      ((Cache.settings_remove cache session.files fingerprint).trans hsettings)
    exact hremoved.of_eq rfl rfl rfl
  · exact hdropped.of_eq rfl rfl rfl

theorem Reloads.holds {reload : Reload} {answer : Except ModuleError Resolution}
    {stack : Stack σ H .reload n} {result : Focus σ H n × Session σ H}
    (h : Reloads account.host reload stack session answer result) (hc : account.Covers session)
    (hs : account.FollowsAll stack) : account.Holds result := by
  cases h with
  | ends resolved wasCached outcome => exact .goesOn hs hc
  | @begins resolution wasCached _ =>
      have hforgotten := covers_forget hc resolution.url
      exact .goesOn ⟨trivial, trivial, trivial, hs⟩ (hforgotten.of_eq rfl rfl rfl)

theorem covers_enableCacheWith (hc : account.Covers session) (config : CacheConfig) :
    account.Covers (session.enableCacheWith config).2 := by
  obtain ⟨cache, hcache, -⟩ := hc.cache
  simp only [enableCacheWith, hcache]
  exact hc

theorem covers_perform (hc : account.Covers session) (operation : Operation σ H) :
    account.Covers (session.perform operation).2 := by
  obtain ⟨cache, hcache, hsettings⟩ := hc.cache
  cases operation with
  | register options =>
      simp only [perform]
      split
      · exact hc.of_eq rfl rfl rfl
      · exact hc
  | clearModules => exact (hc.drops (Registry.drops_clear _)).of_eq rfl rfl rfl
  | clearCache =>
      simp only [perform, clearCache, hcache]
      exact hc.acts ((Cache.adds_clear cache session.files).mono fun _ => Or.inl)
        ((Cache.settings_clear cache session.files).trans hsettings)
  | enableCache directory portable => exact covers_enableCacheWith hc _
  | enableCacheWith config => exact covers_enableCacheWith hc config
  | flush =>
      simp only [perform, flush, hcache]
      exact hc.acts ((Cache.adds_flush cache session.files).mono fun _ => Or.inl)
        ((Cache.settings_flush cache session.files).trans hsettings)
  | _ => exact hc.of_eq rfl rfl rfl

/-! ## Steps -/

/-- A load is given the source of a script. -/
inductive Gives (load : Load) (source : Bytes) : Focus σ H n → Prop where
  | replied {mode : LoadMode} {output : LoadOutput} {stack : Stack σ H .module n}
      (hf : output.format = .script) (hs : output.source = some source) :
      Gives load source ⟨.reply, .done (.ready (.ok output)), .cons (.fetching load mode) stack⟩
  | awaited {output : LoadOutput} {stack : Stack σ H .module n}
      (hf : output.format = .script) (hs : output.source = some source) :
      Gives load source ⟨.output, .done (.ok output), .cons (.awaiting load) stack⟩

theorem resume_holds (hc : account.Covers session) {frame : Frame σ H k m} {value : Value σ H k}
    {rest : Stack σ H m n} (hs : account.FollowsAll (.cons frame rest)) {claims : List Claim}
    (hi : InFlight session.loader.registry (frame.claims ++ claims))
    (hg : ∀ load source, Gives load source (⟨k, .done value, .cons frame rest⟩ : Focus σ H n) →
      account.given load source) :
    account.Holds (resume account.host frame value rest session) := by
  have hcarried : ∀ claim ∈ frame.claims, ∃ record,
      session.loader.registry.get? claim.id = some record ∧ record.key = claim.key ∧
        record.state = claim.state := by
    intro claim hclaim
    obtain ⟨record, hr, hk, hstate, -⟩ := hi.carried claim (List.mem_append_left _ hclaim)
    exact ⟨record, hr, hk, hstate⟩
  obtain ⟨hf, hs⟩ := hs
  cases frame with
  | asking next => exact .goesOn hs hc
  | counting =>
      cases value with
      | ok loaded => exact .goesOn hs (hc.of_eq rfl rfl rfl)
      | error e => exact .goesOn hs (hc.of_eq rfl rfl rfl)
  | resolving order => exact (admits account.host order value rest session).holds hc hs
  | fetching load mode =>
      obtain ⟨record, hr, hk, hstate⟩ := hcarried _ List.mem_cons_self
      refine receiveReply_holds hc hs hr hk hstate mode fun output source heq hscript hsource => ?_
      subst heq
      exact hg load source (.replied hscript hsource)
  | awaiting load =>
      obtain ⟨record, hr, hk, hstate⟩ := hcarried _ List.mem_cons_self
      refine receiveResult_holds hc hs hr hk hstate fun output source heq hscript hsource => ?_
      subst heq
      exact hg load source (.awaited hscript hsource)
  | compiling load source fingerprint =>
      obtain ⟨record, hr, hk, hstate⟩ := hcarried _ List.mem_cons_self
      exact receiveBytecode_holds hc hs hr hk (by rw [hstate]; rfl) hf value
  | executing load handle =>
      obtain ⟨record, hr, -, hstate⟩ := hcarried _ List.mem_cons_self
      exact receiveExecution_holds hc hs hr hstate handle value.1 value.2
  | reloading reload => exact (reloads account.host reload value rest session).holds hc hs
  | renewing reload key wasCached => exact .goesOn hs hc

theorem step_holds (hc : account.Covers session) {focus next : Focus σ H n}
    (hs : account.FollowsAll focus.stack) {claims : List Claim}
    (hi : InFlight session.loader.registry (focus.claims ++ claims))
    (hg : ∀ load source, Gives load source focus → account.given load source)
    (h : (session.step account.host focus).1.GoesOn next) :
    account.Holds (next, (session.step account.host focus).2) := by
  obtain ⟨kind, work, stack⟩ := focus
  cases work with
  | done value =>
      cases stack with
      | nil => exact absurd h not_goesOn_done
      | cons frame rest =>
          cases h
          exact resume_holds hc hs (inFlight_frame hi) hg
  | ask request ask =>
      cases request with
      | request request =>
          cases request with
          | operation operation =>
              cases h
              exact .goesOn hs (covers_perform hc operation)
          | resolve specifier base =>
              cases h
              exact .goesOn ⟨trivial, hs⟩ (hc.of_eq rfl rfl rfl)
          | require specifier base =>
              cases h
              exact .goesOn ⟨trivial, trivial, trivial, hs⟩ (hc.of_eq rfl rfl rfl)
          | reload specifier base =>
              cases h
              exact .goesOn ⟨trivial, trivial, hs⟩ (hc.of_eq rfl rfl rfl)
      | resolveDefault specifier context =>
          cases h
          exact .goesOn hs (hc.of_eq rfl rfl rfl)
      | loadDefault url context =>
          cases h
          exact .goesOn hs hc
      | pause =>
          rcases step_pause account.host ask stack session with heq | heq <;> rw [heq] at h ⊢ <;>
            cases h <;> exact .goesOn hs hc

/-! ## Runs -/

/-- In a run the compiler is started on a source. -/
def StartsCompiler (host : Host σ H) (focus : Focus σ H n) (session : Session σ H)
    (source : Bytes) (options : CompileOptions) : Prop :=
  ∃ load fingerprint stack middle, Leads host focus session
    ⟨.bytecode, .ofProgram (host.compile source options),
      .cons (.compiling load source fingerprint) stack⟩ middle

/-- In a run a load is given the source of a script. -/
def GivesSource (host : Host σ H) (focus : Focus σ H n) (session : Session σ H) (load : Load)
    (source : Bytes) : Prop :=
  ∃ given middle, Leads host focus session given middle ∧ Gives load source given

/-- The account of the run that begins now. -/
def accountOf (host : Host σ H) (focus : Focus σ H n) (session : Session σ H) (cache : Cache) :
    Account σ H where
  host
  cache
  files := session.files
  made := session.loader.registry.records.size
  given := GivesSource host focus session
  compiled := StartsCompiler host focus session

/-- All through a run it is known of every script it has begun where its bytecode comes from. -/
theorem covers_leads {host : Host σ H} {cache : Cache} {last : Session σ H} {claims : List Claim}
    {focus final : Focus σ H n} (h : Leads host focus session final last)
    (hi : InFlight session.loader.registry (focus.claims ++ claims))
    (ht : session.loader.registry.Tabled) (hcache : session.loader.cache = some cache)
    (hg : session.files.Grounded)
    (hs : (session.accountOf host focus cache).FollowsAll focus.stack) :
    (session.accountOf host focus cache).Covers last := by
  have hbegins : (session.accountOf host focus cache).Covers session :=
    ⟨hg, .refl, ⟨cache, hcache, rfl⟩, fun hr hnew =>
      absurd (Registry.index_lt hr) (Nat.not_lt.mpr hnew)⟩
  have hall : Leads host focus session final last ∧
      (session.accountOf host focus cache).Covers last ∧
        (session.accountOf host focus cache).FollowsAll final.stack := by
    refine invariant_leads (motive := fun middle after => Leads host focus session middle after ∧
      (session.accountOf host focus cache).Covers after ∧
        (session.accountOf host focus cache).FollowsAll middle.stack) h hi ht ⟨.refl, hbegins, hs⟩ ?_
    intro middle next after hi _ hgoes ⟨hleads, hcovers, hfollows⟩
    have hnext := hleads.trans (.step hgoes .refl)
    have hholds := step_holds hcovers hfollows hi
      (fun load source hgives => ⟨middle, after, hleads, hgives⟩) hgoes
    cases hholds with
    | goesOn hs hc => exact ⟨hnext, hc, hs⟩
    | compiles hg hs hc =>
        -- The start of the compiler is now part of the run.
        exact ⟨hnext, hc, ⟨hg, _, ⟨_, _, _, _, hnext⟩, rfl⟩, hs⟩
  exact hall.2.1

end Session

end ScriptModules
